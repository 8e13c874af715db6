import SlotArray.Proofs.Directories

/-! Documents that are given to one sink, one after the other. A call that takes its document changes the
file that the document is for; a call that refuses it changes no file and names what could not be written.
Directories are made on the way to that of the sink, and nothing goes away. From this alone it follows what
every file holds in the end: the last text that was taken for it, or else what it held before. -/
namespace SlotArray.Files

section Call
variable {tree middle later : Tree} {start place : Place} {dir name text : String}
  {result : Except PassError Unit}

/-- What else becomes of a tree when something is written below a directory. Nothing goes away, and what
was a directory is one; a new directory stands where nothing was, at a place that is on the way. -/
structure MakesWay (start : Place) (dir : String) (tree later : Tree) : Prop where
  keeps : tree.KeepsDirectories later
  stays : ∀ place, later.get? place = none → tree.get? place = none
  made : ∀ place, later.get? place = some .directory → tree.get? place ≠ some .directory →
    tree.get? place = none ∧
      ∃ path, OnTheWay dir path ∧ path.isEmpty = false ∧ place = resolve start path

theorem MakesWay.refl (start : Place) (dir : String) (tree : Tree) : MakesWay start dir tree tree where
  keeps := fun _ directory => directory
  stays := fun _ free => free
  made := fun _ directory before => absurd directory before

theorem MakesWay.trans (first : MakesWay start dir tree middle) (second : MakesWay start dir middle later) :
    MakesWay start dir tree later where
  keeps := first.keeps.trans second.keeps
  stays := fun place free => first.stays place (second.stays place free)
  made := by
    intro place directory before
    by_cases between : middle.get? place = some .directory
    · exact first.made place between before
    · obtain ⟨free, spelled⟩ := second.made place directory between
      exact ⟨first.stays place free, spelled⟩

theorem makesWay_of_makeDirectories {made : Except FileFault Unit}
    (chained : tree.makeDirectories start dir = (made, later)) : MakesWay start dir tree later := by
  have more := Tree.extends_makeDirectories chained
  refine ⟨more.keepsDirectories, fun place free => ?_, fun place directory before => ⟨?_, ?_⟩⟩
  · rcases more place with same | ⟨before, _⟩
    · rw [← same, free]
    · exact before
  · rcases more place with same | ⟨free, _⟩
    · exact absurd (same ▸ directory) before
    · exact free
  · have after : (tree.makeDirectories start dir).2.get? place = some .directory := by
      rw [chained]
      exact directory
    obtain ⟨path, mem, spelled⟩ := Tree.made_by_makeChain after before
    exact ⟨path, Tree.onTheWay_of_mem_ancestors .self path mem, spelled⟩

theorem Ready.makesWay (ready : Ready start dir tree later) : MakesWay start dir tree later := by
  rcases ready with ⟨_, rfl⟩ | ⟨_, chained⟩
  · exact .refl start dir later
  · exact makesWay_of_makeDirectories chained

/-- A file that is written makes no way and blocks none. -/
theorem makesWay_of_write {path : String} {bytes : ByteArray}
    (written : tree.write start path bytes = .ok later) : MakesWay start dir tree later := by
  have keeps := Tree.keepsDirectories_write written
  obtain ⟨target, located, _, rfl⟩ := Tree.write_eq_ok_iff.mp written
  have held := Tree.get?_put_self tree (Tree.ne_nil_of_locate located) (.file bytes)
  refine ⟨keeps, fun place free => ?_, fun place directory before => ?_⟩
  · by_cases same : place = target
    · subst same
      rw [held] at free
      cases free
    · rwa [Tree.get?_put_of_ne tree same] at free
  · by_cases same : place = target
    · subst same
      rw [held] at directory
      cases directory
    · rw [Tree.get?_put_of_ne tree same] at directory
      exact absurd directory before

/-- The endings of a call, as they are seen in the tree that it leaves. -/
inductive Ending (start : Place) (dir name text : String) (tree later : Tree) :
    Except PassError Unit → Prop where
  | taken (ready : dir.isEmpty = false → later.isDirectory start dir = true)
      (read : later.read start (join dir name) = .ok text.toUTF8)
      (held : later.file? (resolve start (join dir name)) = some text.toUTF8)
      (others : ∀ place ≠ resolve start (join dir name), later.file? place = tree.file? place) :
      Ending start dir name text tree later (.ok ())
  | noDirectory (cause : FileFault) (present : dir.isEmpty = false)
      (failed : tree.makeDirectories start dir = (.error cause, later))
      (absent : later.isDirectory start dir = false)
      (unchanged : ∀ place, later.file? place = tree.file? place) :
      Ending start dir name text tree later (.error (.write dir cause))
  | noFile (cause : FileFault) (ready : dir.isEmpty = false → later.isDirectory start dir = true)
      (failed : later.write start (join dir name) text.toUTF8 = .error cause)
      (unchanged : ∀ place, later.file? place = tree.file? place) :
      Ending start dir name text tree later (.error (.write (join dir name) cause))

/-- All that a call does. -/
structure Settles (start : Place) (dir name text : String) (tree later : Tree)
    (result : Except PassError Unit) : Prop where
  way : MakesWay start dir tree later
  ending : Ending start dir name text tree later result

theorem settles_of_sink (gave : sink start dir name text tree = (result, later)) :
    Settles start dir name text tree later result := by
  obtain ⟨cause, present, chained, rfl⟩ | ⟨cause, ready, failed, rfl⟩ | ⟨made, ready, written, rfl⟩ :=
    sink_cases gave
  · exact ⟨makesWay_of_makeDirectories chained, .noDirectory cause present chained
      (Tree.isDirectory_of_makeChain_error chained) (file?_of_refused gave)⟩
  · exact ⟨ready.makesWay, .noFile cause ready.isDirectory failed (file?_of_refused gave)⟩
  · have keeps := Tree.keepsDirectories_write written
    have there (present : dir.isEmpty = false) := Tree.isDirectory_of_keeps keeps (ready.isDirectory present)
    obtain ⟨held, others⟩ := file?_of_stored gave
    exact ⟨ready.makesWay.trans (makesWay_of_write written),
      .taken there (Tree.read_of_write written) held others⟩

/-- A call leaves in each file the text that it took for it, or what was there. -/
theorem Settles.file? (call : Settles start dir name text tree later result) (place : Place) :
    later.file? place =
      ((if result = .ok () ∧ resolve start (join dir name) = place then some text else none).map
        String.toUTF8).or (tree.file? place) := by
  cases call.ending with
  | taken _ _ held others =>
    by_cases same : resolve start (join dir name) = place
    · rw [if_pos ⟨rfl, same⟩, ← same, held]
      rfl
    · rw [if_neg fun both => same both.2, others place (Ne.symm same)]
      rfl
  | noDirectory _ _ _ _ unchanged => exact unchanged place
  | noFile _ _ _ unchanged => exact unchanged place

end Call

/-! ## One call after the other -/

/-- A document that was given to a sink, and the answer. -/
structure Delivery where
  name : String
  text : String
  result : Except PassError Unit
deriving DecidableEq

/-- The place that a document is for. -/
def Delivery.place (start : Place) (dir : String) (delivery : Delivery) : Place :=
  resolve start (join dir delivery.name)

/-- Gives documents to a sink, whatever it answers. -/
def sinkAll (start : Place) (dir : String) : List (String × String) → Tree → List Delivery × Tree
  | [], tree => ([], tree)
  | (name, text) :: documents, tree =>
    let (result, tree) := sink start dir name text tree
    let (deliveries, tree) := sinkAll start dir documents tree
    (⟨name, text, result⟩ :: deliveries, tree)

/-- Calls that settle their documents one after the other, each in the tree that those before it left. -/
inductive SettlesAll (start : Place) (dir : String) : Tree → List Delivery → Tree → Prop where
  | nil (tree : Tree) : SettlesAll start dir tree [] tree
  | cons {tree middle later : Tree} {delivery : Delivery} {deliveries : List Delivery}
      (first : Settles start dir delivery.name delivery.text tree middle delivery.result)
      (next : SettlesAll start dir middle deliveries later) :
      SettlesAll start dir tree (delivery :: deliveries) later

section Calls
variable {tree later : Tree} {start place : Place} {dir : String} {delivery : Delivery}
  {deliveries : List Delivery}

theorem settlesAll_sinkAll (start : Place) (dir : String) (documents : List (String × String))
    (tree : Tree) :
    SettlesAll start dir tree (sinkAll start dir documents tree).1 (sinkAll start dir documents tree).2 := by
  induction documents generalizing tree with
  | nil => exact .nil tree
  | cons document documents ih => exact .cons (settles_of_sink rfl) (ih _)

theorem documents_of_sinkAll (start : Place) (dir : String) (documents : List (String × String))
    (tree : Tree) :
    (sinkAll start dir documents tree).1.map (fun delivery => (delivery.name, delivery.text)) =
      documents := by
  induction documents generalizing tree with
  | nil => rfl
  | cons document documents ih => exact congrArg (document :: ·) (ih _)

/-- The text of the last document that was taken for a place. -/
def lastText (start : Place) (dir : String) (place : Place) (deliveries : List Delivery) : Option String :=
  (deliveries.reverse.find? fun delivery =>
    delivery.result = .ok () && delivery.place start dir = place).map Delivery.text

theorem lastText_cons : lastText start dir place (delivery :: deliveries) =
    (lastText start dir place deliveries).or
      (if delivery.result = .ok () ∧ delivery.place start dir = place then some delivery.text else none) := by
  rw [lastText, List.reverse_cons, List.find?_append, Option.map_or, ← lastText, List.find?_singleton]
  simp only [Bool.and_eq_true, decide_eq_true_eq]
  split <;> rfl

theorem exists_lastText (mem : delivery ∈ deliveries) (taken : delivery.result = .ok ()) :
    ∃ text, lastText start dir (delivery.place start dir) deliveries = some text := by
  have found : (lastText start dir (delivery.place start dir) deliveries).isSome = true := by
    rw [lastText, Option.isSome_map, List.find?_isSome]
    exact ⟨delivery, List.mem_reverse.mpr mem, by simp [taken]⟩
  exact Option.isSome_iff_exists.mp found

theorem SettlesAll.way (calls : SettlesAll start dir tree deliveries later) :
    MakesWay start dir tree later := by
  induction calls with
  | nil tree => exact .refl start dir tree
  | cons first _ ih => exact first.way.trans ih

/-- After all calls a file holds the last text that was taken for it. -/
theorem SettlesAll.file? (calls : SettlesAll start dir tree deliveries later) (place : Place) :
    later.file? place =
      ((lastText start dir place deliveries).map String.toUTF8).or (tree.file? place) := by
  induction calls with
  | nil tree => rfl
  | cons first _ ih =>
    rw [ih, first.file?, lastText_cons, Option.map_or, Option.or_assoc]
    rfl

/-- The path of a document that was taken leads to its place ever after. -/
theorem SettlesAll.locate (calls : SettlesAll start dir tree deliveries later) (mem : delivery ∈ deliveries)
    (taken : delivery.result = .ok ()) :
    later.locate start (join dir delivery.name) = .ok (.name (delivery.place start dir) false) := by
  induction calls with
  | nil => cases mem
  | @cons _ middle _ first _ call next ih =>
    rcases List.mem_cons.mp mem with rfl | mem
    · have ending := call.ending
      rw [taken] at ending
      cases ending with
      | taken _ read _ _ =>
        obtain ⟨place, located, _⟩ := Tree.read_eq_ok_iff.mp read
        have reached : place = delivery.place start dir := reached_of_locate located
        rw [← reached]
        -- No later call takes a directory away, so the path leads where it led.
        exact Tree.locate_of_keeps next.way.keeps located
    · exact ih mem

end Calls

/-- What becomes of a tree when one sink is given documents, whatever they are called and however the calls
end. Each call settles its document: it is taken, so its file holds it and every other one what it held, or
it is refused for the directory or for the file, and then no file is different. In the end a file holds the
last text that was taken for it, and this is read through every path that was taken; a file without one is
as it was. What was made are directories on the way. -/
theorem sink_calls_settle (start : Place) (dir : String) (documents : List (String × String)) (tree : Tree) :
    let deliveries := (sinkAll start dir documents tree).1
    let last := (sinkAll start dir documents tree).2
    deliveries.map (fun delivery => (delivery.name, delivery.text)) = documents ∧
      SettlesAll start dir tree deliveries last ∧
      (∀ place, last.file? place =
        ((lastText start dir place deliveries).map String.toUTF8).or (tree.file? place)) ∧
      (∀ delivery ∈ deliveries, delivery.result = .ok () →
        ∃ text, lastText start dir (delivery.place start dir) deliveries = some text ∧
          last.read start (join dir delivery.name) = .ok text.toUTF8) ∧
      MakesWay start dir tree last := by
  intro deliveries last
  have calls : SettlesAll start dir tree deliveries last := settlesAll_sinkAll start dir documents tree
  refine ⟨documents_of_sinkAll start dir documents tree, calls, calls.file?, ?_, calls.way⟩
  intro delivery mem taken
  obtain ⟨text, found⟩ := @exists_lastText start dir delivery deliveries mem taken
  refine ⟨text, found, Tree.read_eq_ok_iff.mpr ⟨_, calls.locate mem taken, ?_⟩⟩
  rw [← Tree.file?_eq_some_iff, calls.file?, found]
  rfl

/-- Two names for one place, and between them one in a directory that is not there: what is read in the end
is the text that came last. -/
theorem sink_calls_settle_one_place :
    let tree := (Tree.empty.put ["work"] .directory).put ["work", "old.rs"] (.file "0".toUTF8)
    let calls := sinkAll ["work"] "gen/out" [("a.rs", "1"), ("sub/a.rs", "2"), ("./a.rs", "3")] tree
    calls.1.map Delivery.result =
        [.ok (), .error (.write "gen/out/sub/a.rs" .notFound), .ok ()] ∧
      calls.2.read ["work"] "gen/out/a.rs" = .ok "3".toUTF8 ∧
      calls.2.file? ["work", "old.rs"] = some "0".toUTF8 ∧
      calls.2.get? ["work", "gen"] = some .directory := by
  intro tree calls
  obtain ⟨_, _, held, taken, _⟩ := sink_calls_settle ["work"] "gen/out"
    [("a.rs", "1"), ("sub/a.rs", "2"), ("./a.rs", "3")] tree
  have mem : (⟨"a.rs", "1", .ok ()⟩ : Delivery) ∈ calls.1 := by decide +kernel
  obtain ⟨text, found, read⟩ := taken _ mem rfl
  have spelled : lastText ["work"] "gen/out" ["work", "gen", "out", "a.rs"] calls.1 = some "3" := by
    decide +kernel
  have same : text = "3" := Option.some.inj (found.symm.trans spelled)
  refine ⟨by decide +kernel, same ▸ read, ?_, by decide +kernel⟩
  have untouched : lastText ["work"] "gen/out" ["work", "old.rs"] calls.1 = none := by decide +kernel
  rw [held ["work", "old.rs"], untouched]
  decide +kernel

end SlotArray.Files
