import SlotArray.Files.Sink
import SlotArray.Proofs.Accepted

/-! Trees of files before and after something was written. A path leads through directories alone, and
neither making a directory nor writing a file takes a directory away, so a path that led somewhere
still leads there. What a sink does can therefore be read in the tree that it leaves. -/
namespace SlotArray.Files

namespace Tree
variable {tree later : Tree} {start place : Place} {path : String}

/-! ## Where a path leads -/

/-- Every directory of one tree is a directory of another one, which came out of it. -/
def KeepsDirectories (tree later : Tree) : Prop :=
  ∀ place, tree.get? place = some .directory → later.get? place = some .directory

theorem KeepsDirectories.trans {last : Tree} (first : KeepsDirectories tree later)
    (second : KeepsDirectories later last) : KeepsDirectories tree last :=
  fun place directory => second place (first place directory)

theorem enter_eq_ok_iff {part : List Char} {next : Place} :
    tree.enter place part = .ok next ↔
      if part = [] ∨ part = ['.'] then next = place
      else if part = ['.', '.'] then next = place.dropLast
      else (String.ofList part).utf8ByteSize ≤ nameLimit ∧
        tree.get? (place ++ [String.ofList part]) = some .directory ∧
        next = place ++ [String.ofList part] := by
  unfold enter
  simp only [Bool.or_eq_true, decide_eq_true_eq]
  split
  · simp [eq_comm]
  · split
    · simp [eq_comm]
    · split
      · simp; omega
      · cases tree.get? (place ++ [String.ofList part]) with
        | none => simp
        | some entry => cases entry <;> simp [eq_comm]; omega

theorem enter_of_keeps (keeps : KeepsDirectories tree later) {part : List Char} {next : Place}
    (entered : tree.enter place part = .ok next) : later.enter place part = .ok next := by
  rw [enter_eq_ok_iff] at entered ⊢
  split
  · rwa [if_pos (by assumption)] at entered
  · rw [if_neg (by assumption)] at entered
    split
    · rwa [if_pos (by assumption)] at entered
    · rw [if_neg (by assumption)] at entered
      exact ⟨entered.1, keeps _ entered.2.1, entered.2.2⟩

theorem foldlM_enter_of_keeps (keeps : KeepsDirectories tree later) {parts : List (List Char)}
    {next : Place} (entered : parts.foldlM tree.enter place = .ok next) :
    parts.foldlM later.enter place = .ok next := by
  induction parts generalizing place with
  | nil => exact entered
  | cons part parts ih =>
    rw [List.foldlM_cons] at entered ⊢
    obtain ⟨inner, first, entered⟩ := bind_eq_ok_iff.mp entered
    exact bind_eq_ok_iff.mpr ⟨inner, enter_of_keeps keeps first, ih entered⟩

/-- A text that can be followed as a path at all. -/
def IsPath (path : String) : Prop :=
  path.toList.contains '\x00' = false ∧ path.isEmpty = false ∧ path.utf8ByteSize < pathLimit

/-- The parts of a path up to the last one that is a name. -/
def namedParts (path : String) : List (List Char) :=
  ((pathParts path.toList).reverse.dropWhile List.isEmpty).reverse

/-- Where a path begins. -/
def origin (start : Place) (path : String) : Place := if isAbsolute path then [] else start

theorem isPath_of_locate {target : Target} (located : tree.locate start path = .ok target) :
    IsPath path := by
  have noNul : path.toList.contains '\x00' = false := by
    refine Bool.eq_false_iff.mpr fun nul => ?_
    simp only [locate, nul, ↓reduceIte] at located
    cases located
  have notEmpty : path.isEmpty = false := by
    refine Bool.eq_false_iff.mpr fun empty => ?_
    simp only [locate, noNul, empty, Bool.false_eq_true, ↓reduceIte] at located
    cases located
  refine ⟨noNul, notEmpty, Nat.not_le.mp fun long => ?_⟩
  simp only [locate, noNul, notEmpty, long, Bool.false_eq_true, ↓reduceIte] at located
  cases located

private theorem locate_of_isPath (isPath : IsPath path) : tree.locate start path =
    match (namedParts path).getLast? with
    | none => .ok (.directory (origin start path))
    | some last =>
      (namedParts path).dropLast.foldlM tree.enter (origin start path) >>= fun place =>
        if last = ['.'] || last = ['.', '.'] then
          tree.enter place last >>= fun inner => .ok (.directory inner)
        else if nameLimit < (String.ofList last).utf8ByteSize then .error .nameTooLong
        else .ok (.name (place ++ [String.ofList last])
          ((namedParts path).length < (pathParts path.toList).length)) := by
  obtain ⟨noNul, notEmpty, short⟩ := isPath
  simp only [locate, noNul, notEmpty, Nat.not_le.mpr short, Bool.false_eq_true, ↓reduceIte]
  rfl

/-- What it takes for a path to lead to a target: its parts but the last are directories, one in the
other, and the last one is another step or a name. -/
inductive LeadsTo (tree : Tree) (start : Place) (path : String) : Target → Prop where
  | origin (isPath : IsPath path) (nameless : (namedParts path).getLast? = none) :
      LeadsTo tree start path (.directory (origin start path))
  | step {last : List Char} {place inner : Place} (isPath : IsPath path)
      (ends : (namedParts path).getLast? = some last) (silent : last = ['.'] ∨ last = ['.', '.'])
      (entered : (namedParts path).dropLast.foldlM tree.enter (origin start path) = .ok place)
      (stepped : tree.enter place last = .ok inner) : LeadsTo tree start path (.directory inner)
  | name {last : List Char} {place : Place} (isPath : IsPath path)
      (ends : (namedParts path).getLast? = some last) (named : ¬ (last = ['.'] ∨ last = ['.', '.']))
      (entered : (namedParts path).dropLast.foldlM tree.enter (origin start path) = .ok place)
      (short : (String.ofList last).utf8ByteSize ≤ nameLimit) :
      LeadsTo tree start path (.name (place ++ [String.ofList last])
        ((namedParts path).length < (pathParts path.toList).length))

theorem leadsTo_of_locate {target : Target} (located : tree.locate start path = .ok target) :
    LeadsTo tree start path target := by
  have isPath := isPath_of_locate located
  rw [locate_of_isPath isPath] at located
  split at located
  · cases located
    exact .origin isPath ‹_›
  · rename_i last ends
    obtain ⟨place, entered, located⟩ := bind_eq_ok_iff.mp located
    split at located
    · rename_i silent
      obtain ⟨inner, stepped, located⟩ := bind_eq_ok_iff.mp located
      cases located
      exact .step isPath ends (by simpa using silent) entered stepped
    · rename_i named
      split at located
      · cases located
      · cases located
        exact .name isPath ends (by simpa using named) entered (by omega)

theorem locate_of_leadsTo {target : Target} (leads : LeadsTo tree start path target) :
    tree.locate start path = .ok target := by
  cases leads with
  | origin isPath nameless => rw [locate_of_isPath isPath, nameless]
  | @step last place inner isPath ends silent entered stepped =>
    have silent : (decide (last = ['.']) || decide (last = ['.', '.'])) = true := by simpa using silent
    simp only [locate_of_isPath isPath, ends, entered, stepped, silent, ↓reduceIte, bind, Except.bind]
  | @name last place isPath ends named entered short =>
    have named : ¬ (decide (last = ['.']) || decide (last = ['.', '.'])) = true := by simpa using named
    simp only [locate_of_isPath isPath, ends, entered, named, Nat.not_lt.mpr short, ↓reduceIte, bind,
      Except.bind]
    rfl

theorem locate_of_keeps (keeps : KeepsDirectories tree later) {target : Target}
    (located : tree.locate start path = .ok target) : later.locate start path = .ok target := by
  apply locate_of_leadsTo
  cases leadsTo_of_locate located with
  | origin isPath nameless => exact .origin isPath nameless
  | step isPath ends silent entered stepped =>
    exact .step isPath ends silent (foldlM_enter_of_keeps keeps entered) (enter_of_keeps keeps stepped)
  | name isPath ends named entered short =>
    exact .name isPath ends named (foldlM_enter_of_keeps keeps entered) short

/-- A name stands below the root. -/
theorem ne_nil_of_locate {slash : Bool} (located : tree.locate start path = .ok (.name place slash)) :
    place ≠ [] := by
  cases leadsTo_of_locate located with
  | name => exact List.append_ne_nil_of_right_ne_nil _ (List.cons_ne_nil _ _)

/-! ## Reading, writing, and making directories -/

section Operations
variable {bytes : ByteArray}

theorem read_eq_ok_iff : tree.read start path = .ok bytes ↔
    ∃ place, tree.locate start path = .ok (.name place false) ∧
      tree.get? place = some (.file bytes) := by
  unfold read
  rw [bind_eq_ok_iff]
  constructor
  · rintro ⟨target, located, found⟩
    cases target with
    | directory => cases found
    | name place slash =>
      dsimp only at found
      split at found
      · rename_i held there
        split at found
        · cases found
        · rename_i open_
          cases found
          rw [Bool.not_eq_true] at open_
          rw [open_] at located
          exact ⟨place, located, there⟩
      · cases found
      · cases found
  · rintro ⟨place, located, there⟩
    refine ⟨_, located, ?_⟩
    simp only [there]
    rfl

theorem write_eq_ok_iff : tree.write start path bytes = .ok later ↔
    ∃ place, tree.locate start path = .ok (.name place false) ∧
      tree.get? place ≠ some .directory ∧ later = tree.put place (.file bytes) := by
  unfold write
  rw [bind_eq_ok_iff]
  constructor
  · rintro ⟨target, located, written⟩
    cases target with
    | directory => cases written
    | name place slash =>
      cases slash with
      | true => cases written
      | false =>
        simp only [Bool.false_eq_true, ↓reduceIte] at written
        split at written
        · cases written
        · rename_i free
          cases written
          exact ⟨place, located, free, rfl⟩
  · rintro ⟨place, located, free, rfl⟩
    refine ⟨_, located, ?_⟩
    simp only [Bool.false_eq_true, ↓reduceIte]
    rfl

theorem makeDirectory_eq_ok_iff : tree.makeDirectory start path = .ok later ↔
    ∃ place slash, tree.locate start path = .ok (.name place slash) ∧ tree.get? place = none ∧
      later = tree.put place .directory := by
  unfold makeDirectory
  rw [bind_eq_ok_iff]
  constructor
  · rintro ⟨target, located, made⟩
    cases target with
    | directory => cases made
    | name place slash =>
      dsimp only at made
      split at made
      · cases made
      · rename_i free
        cases made
        exact ⟨place, slash, located, free, rfl⟩
  · rintro ⟨place, slash, located, free, rfl⟩
    refine ⟨_, located, ?_⟩
    simp only [free]
    rfl

theorem isDirectory_iff : tree.isDirectory start path = true ↔
    (∃ place, tree.locate start path = .ok (.directory place)) ∨
      ∃ place slash, tree.locate start path = .ok (.name place slash) ∧
        tree.get? place = some .directory := by
  rw [isDirectory, decide_eq_true_iff, find?]
  cases tree.locate start path with
  | error fault => simp
  | ok target =>
    cases target with
    | directory => simp
    | name place slash =>
      cases there : tree.get? place with
      | none => simp [there]
      | some entry =>
        cases entry with
        | directory => simp [there]
        | file => cases slash <;> simp [there]

theorem isDirectory_of_keeps (keeps : KeepsDirectories tree later)
    (there : tree.isDirectory start path = true) : later.isDirectory start path = true := by
  rw [isDirectory_iff] at there ⊢
  rcases there with ⟨place, located⟩ | ⟨place, slash, located, directory⟩
  · exact .inl ⟨place, locate_of_keeps keeps located⟩
  · exact .inr ⟨place, slash, locate_of_keeps keeps located, keeps place directory⟩

/-- What is put where no directory was takes none away. -/
theorem keepsDirectories_put {entry : Entry} (free : tree.get? place ≠ some .directory) :
    KeepsDirectories tree (tree.put place entry) := by
  intro other directory
  have differ : other ≠ place := by
    rintro rfl
    exact free directory
  rw [get?_put_of_ne tree differ, directory]

theorem keepsDirectories_write (written : tree.write start path bytes = .ok later) :
    KeepsDirectories tree later := by
  obtain ⟨place, _, free, rfl⟩ := write_eq_ok_iff.mp written
  exact keepsDirectories_put free

/-- What was written is read. -/
theorem read_of_write (written : tree.write start path bytes = .ok later) :
    later.read start path = .ok bytes := by
  obtain ⟨place, located, free, rfl⟩ := write_eq_ok_iff.mp written
  refine read_eq_ok_iff.mpr ⟨place, locate_of_keeps (keepsDirectories_put free) located, ?_⟩
  exact get?_put_self tree (ne_nil_of_locate located) _

theorem put_put (tree : Tree) (place : Place) (entry : Entry) :
    (tree.put place entry).put place entry = tree.put place entry := by
  simp [put, List.filter_filter]

/-- Writing once more what was written changes nothing. -/
theorem write_of_write (written : tree.write start path bytes = .ok later) :
    later.write start path bytes = .ok later := by
  obtain ⟨place, located, free, rfl⟩ := write_eq_ok_iff.mp written
  refine write_eq_ok_iff.mpr ⟨place, locate_of_keeps (keepsDirectories_put free) located, ?_, ?_⟩
  · rw [get?_put_self tree (ne_nil_of_locate located)]
    nofun
  · exact (put_put tree place _).symm

end Operations

/-! ## Directories that are made -/

/-- One tree is another one with directories made where nothing was. -/
def Extends (tree later : Tree) : Prop :=
  ∀ place, later.get? place = tree.get? place ∨
    tree.get? place = none ∧ later.get? place = some .directory

theorem Extends.refl (tree : Tree) : Extends tree tree := fun _ => .inl rfl

theorem Extends.trans {last : Tree} (first : Extends tree later) (second : Extends later last) :
    Extends tree last := by
  intro place
  rcases second place with same | ⟨free, made⟩
  · rw [same]
    exact first place
  · rcases first place with sameFirst | ⟨freeFirst, _⟩
    · exact .inr ⟨sameFirst ▸ free, made⟩
    · exact .inr ⟨freeFirst, made⟩

theorem Extends.keepsDirectories (more : Extends tree later) : KeepsDirectories tree later := by
  intro place directory
  rcases more place with same | ⟨free, _⟩
  · rw [same, directory]
  · rw [directory] at free
    cases free

theorem extends_makeDirectory (made : tree.makeDirectory start path = .ok later) :
    Extends tree later := by
  obtain ⟨place, slash, located, free, rfl⟩ := makeDirectory_eq_ok_iff.mp made
  intro other
  by_cases same : other = place
  · subst same
    exact .inr ⟨free, get?_put_self tree (ne_nil_of_locate located) _⟩
  · exact .inl (get?_put_of_ne tree same _)

theorem isDirectory_of_makeDirectory (made : tree.makeDirectory start path = .ok later) :
    later.isDirectory start path = true := by
  have keeps := (extends_makeDirectory made).keepsDirectories
  obtain ⟨place, slash, located, free, rfl⟩ := makeDirectory_eq_ok_iff.mp made
  refine isDirectory_iff.mpr (.inr ⟨place, slash, locate_of_keeps keeps located, ?_⟩)
  exact get?_put_self tree (ne_nil_of_locate located) _

/-- A directory is not made twice. -/
theorem makeDirectory_of_isDirectory (there : tree.isDirectory start path = true) :
    tree.makeDirectory start path = .error .exists := by
  unfold makeDirectory
  rcases isDirectory_iff.mp there with ⟨place, located⟩ | ⟨place, slash, located, directory⟩
  · rw [located]
    rfl
  · rw [located]
    simp only [bind, Except.bind, directory]
    rfl

/-- However it ends, making directories does nothing but that. -/
theorem extends_makeChain (start : Place) (tree : Tree) (paths : List String) :
    Extends tree (makeChain start tree paths).2 := by
  fun_induction makeChain start tree paths with
  | case1 => exact .refl _
  | case2 => exact .refl _
  | case3 path above _ later made => exact extends_makeDirectory made
  | case4 path above _ missing fault later failed ih =>
    rw [failed] at ih
    exact ih
  | case5 path above _ missing middle chained later made ih =>
    rw [chained] at ih
    exact ih.trans (extends_makeDirectory made)
  | case6 path above _ missing later chained fault failed ih =>
    rw [chained] at ih
    exact ih
  | case7 => exact .refl _

/-- A chain that was made ends with a directory. -/
theorem isDirectory_of_makeChain {above : List String} (notEmpty : path.isEmpty = false)
    (made : makeChain start tree (path :: above) = (.ok (), later)) :
    later.isDirectory start path = true := by
  have decided {fault : FileFault} {tree : Tree}
      (ended : ((if tree.isDirectory start path then .ok () else .error fault, tree) :
        Except FileFault Unit × Tree) = (.ok (), later)) : later.isDirectory start path = true := by
    split at ended
    · cases ended
      assumption
    · cases ended
  rw [makeChain, notEmpty, if_neg Bool.false_ne_true] at made
  split at made
  · rename_i first
    cases made
    exact isDirectory_of_makeDirectory first
  · split at made
    · cases made
    · split at made
      · rename_i second
        cases made
        exact isDirectory_of_makeDirectory second
      · exact decided made
  · exact decided made

/-- Nothing is made where a directory is. -/
theorem makeChain_of_isDirectory (there : tree.isDirectory start path = true)
    (above : List String) : makeChain start tree (path :: above) = (.ok (), tree) := by
  rw [makeChain, makeDirectory_of_isDirectory there]
  simp only [there, ↓reduceIte, ite_self]

theorem extends_makeDirectories {result : Except FileFault Unit}
    (made : tree.makeDirectories start path = (result, later)) : Extends tree later := by
  have more := extends_makeChain start tree (ancestors (pathParts path.toList).length path)
  rw [← makeDirectories, made] at more
  exact more

theorem exists_ancestors (n : Nat) (path : String) : ∃ above, ancestors n path = path :: above := by
  cases n with
  | zero => exact ⟨[], rfl⟩
  | succ n =>
    rw [ancestors]
    split
    · exact ⟨_, rfl⟩
    · exact ⟨[], rfl⟩

end Tree

/-! ## What a sink leaves behind -/

section Sink
variable {tree later : Tree} {start : Place} {dir name text path : String} {bytes : ByteArray}

/-- The tree that a sink writes into: as it is if the sink has no directory, or with the directory made. -/
def Ready (start : Place) (dir : String) (tree made : Tree) : Prop :=
  dir.isEmpty = true ∧ made = tree ∨ dir.isEmpty = false ∧ tree.makeDirectories start dir = (.ok (), made)

theorem Ready.isDirectory {made : Tree} (ready : Ready start dir tree made) (present : dir.isEmpty = false) :
    made.isDirectory start dir = true := by
  rcases ready with ⟨empty, _⟩ | ⟨_, chained⟩
  · rw [present] at empty
    cases empty
  · obtain ⟨above, chain⟩ := Tree.exists_ancestors (pathParts dir.toList).length dir
    rw [Tree.makeDirectories, chain] at chained
    exact Tree.isDirectory_of_makeChain present chained

theorem Ready.extends {made : Tree} (ready : Ready start dir tree made) : tree.Extends made := by
  rcases ready with ⟨_, rfl⟩ | ⟨_, chained⟩
  · exact .refl made
  · exact Tree.extends_makeDirectories chained

/-- Either there is a tree to write into, or the directory cannot be made. -/
theorem exists_ready_or_error (start : Place) (dir : String) (tree : Tree) :
    (∃ made, Ready start dir tree made) ∨
      ∃ cause made, dir.isEmpty = false ∧ tree.makeDirectories start dir = (.error cause, made) := by
  by_cases empty : dir.isEmpty = true
  · exact .inl ⟨tree, .inl ⟨empty, rfl⟩⟩
  · have present : dir.isEmpty = false := Bool.eq_false_iff.mpr empty
    cases chained : tree.makeDirectories start dir with
    | mk result made =>
      cases result with
      | ok => exact .inl ⟨made, .inr ⟨present, chained⟩⟩
      | error cause => exact .inr ⟨cause, made, present, rfl⟩

theorem sink_of_write {made : Tree} (ready : Ready start dir tree made)
    (written : made.write start (join dir name) text.toUTF8 = .ok later) :
    sink start dir name text tree = (.ok (), later) := by
  rcases ready with ⟨empty, rfl⟩ | ⟨present, chained⟩
  · simp only [sink, empty, ↓reduceIte, written]
  · simp only [sink, present, Bool.false_eq_true, ↓reduceIte, chained, written]

theorem sink_of_write_error {cause : FileFault} (ready : Ready start dir tree later)
    (failed : later.write start (join dir name) text.toUTF8 = .error cause) :
    sink start dir name text tree = (.error (.write (join dir name) cause), later) := by
  rcases ready with ⟨empty, rfl⟩ | ⟨present, chained⟩
  · simp only [sink, empty, ↓reduceIte, failed]
  · simp only [sink, present, Bool.false_eq_true, ↓reduceIte, chained, failed]

/-- The three ways a call of a sink ends. -/
theorem sink_cases {result : Except PassError Unit} (gave : sink start dir name text tree = (result, later)) :
    (∃ cause, dir.isEmpty = false ∧ tree.makeDirectories start dir = (.error cause, later) ∧
      result = .error (.write dir cause)) ∨
    (∃ cause, Ready start dir tree later ∧
      later.write start (join dir name) text.toUTF8 = .error cause ∧
      result = .error (.write (join dir name) cause)) ∨
    ∃ made, Ready start dir tree made ∧
      made.write start (join dir name) text.toUTF8 = .ok later ∧ result = .ok () := by
  rcases exists_ready_or_error start dir tree with ⟨made, ready⟩ | ⟨cause, made, present, chained⟩
  · cases written : made.write start (join dir name) text.toUTF8 with
    | error cause =>
      rw [sink_of_write_error ready written] at gave
      cases gave
      exact .inr (.inl ⟨cause, ready, written, rfl⟩)
    | ok stored =>
      rw [sink_of_write ready written] at gave
      cases gave
      exact .inr (.inr ⟨made, ready, written, rfl⟩)
  · simp only [sink, present, Bool.false_eq_true, ↓reduceIte, chained] at gave
    cases gave
    exact .inl ⟨cause, present, chained, rfl⟩

/-- A sink writes into a directory that is there, or that it made. -/
theorem exists_write_of_sink (stored : sink start dir name text tree = (.ok (), later)) :
    ∃ made, Ready start dir tree made ∧ made.write start (join dir name) text.toUTF8 = .ok later := by
  obtain ⟨_, _, _, ⟨⟩⟩ | ⟨_, _, _, ⟨⟩⟩ | ⟨made, ready, written, _⟩ := sink_cases stored
  exact ⟨made, ready, written⟩

/-- A sink that refuses says what it could not write: the directory, or the file in it. It has made
directories at most. -/
theorem write_error_of_sink {error : PassError}
    (refused : sink start dir name text tree = (.error error, later)) :
    (∃ path cause, (path = dir ∨ path = join dir name) ∧ error = .write path cause) ∧
      tree.Extends later := by
  obtain ⟨cause, _, chained, ⟨⟩⟩ | ⟨cause, ready, _, ⟨⟩⟩ | ⟨_, _, _, ⟨⟩⟩ := sink_cases refused
  · exact ⟨⟨_, _, .inl rfl, rfl⟩, Tree.extends_makeDirectories chained⟩
  · exact ⟨⟨_, _, .inr rfl, rfl⟩, ready.extends⟩

/-- A document is in the file that a path leads to, and nothing else is different but directories
that were made where nothing was. -/
structure Stored (start : Place) (path text : String) (tree later : Tree) : Prop where
  held : later.read start path = .ok text.toUTF8
  rest : ∃ place, later.locate start path = .ok (.name place false) ∧
    ∀ other ≠ place, later.get? other = tree.get? other ∨
      tree.get? other = none ∧ later.get? other = some .directory

theorem stored_of_sink (stored : sink start dir name text tree = (.ok (), later)) :
    Stored start (join dir name) text tree later := by
  obtain ⟨made, ready, written⟩ := exists_write_of_sink stored
  refine ⟨Tree.read_of_write written, ?_⟩
  have keeps := Tree.keepsDirectories_write written
  obtain ⟨place, located, _, rfl⟩ := Tree.write_eq_ok_iff.mp written
  refine ⟨place, Tree.locate_of_keeps keeps located, ?_⟩
  intro other differ
  rw [Tree.get?_put_of_ne made differ]
  exact ready.extends other

/-- A sink takes no directory away. -/
theorem keepsDirectories_sink (stored : sink start dir name text tree = (.ok (), later)) :
    tree.KeepsDirectories later := by
  obtain ⟨made, ready, written⟩ := exists_write_of_sink stored
  exact ready.extends.keepsDirectories.trans (Tree.keepsDirectories_write written)

/-- A sink that is given a document again finds all as it left it. -/
theorem sink_of_sink (stored : sink start dir name text tree = (.ok (), later)) :
    sink start dir name text later = (.ok (), later) := by
  obtain ⟨made, ready, written⟩ := exists_write_of_sink stored
  refine sink_of_write ?_ (Tree.write_of_write written)
  by_cases empty : dir.isEmpty = true
  · exact .inl ⟨empty, rfl⟩
  · have present : dir.isEmpty = false := Bool.eq_false_iff.mpr empty
    have there := Tree.isDirectory_of_keeps (Tree.keepsDirectories_write written) (ready.isDirectory present)
    obtain ⟨above, chain⟩ := Tree.exists_ancestors (pathParts dir.toList).length dir
    refine .inr ⟨present, ?_⟩
    rw [Tree.makeDirectories, chain]
    exact Tree.makeChain_of_isDirectory there above

/-- A file that was there is still read, as long as its path does not lead to the document. -/
theorem read_of_sink (stored : sink start dir name text tree = (.ok (), later))
    (held : tree.read start path = .ok bytes)
    (apart : later.locate start path ≠ later.locate start (join dir name)) :
    later.read start path = .ok bytes := by
  have keeps := keepsDirectories_sink stored
  obtain ⟨place, located, there⟩ := Tree.read_eq_ok_iff.mp held
  obtain ⟨target, reached, others⟩ := (stored_of_sink stored).rest
  have stays := Tree.locate_of_keeps keeps located
  have differ : place ≠ target := by
    rintro rfl
    apply apart
    rw [stays, reached]
  refine Tree.read_eq_ok_iff.mpr ⟨place, stays, ?_⟩
  rcases others place differ with same | ⟨free, _⟩
  · rw [same, there]
  · rw [there] at free
    cases free

/-- Two paths that lead to one place read the same. -/
theorem read_eq_of_locate {other : String}
    (same : tree.locate start path = tree.locate start other) :
    tree.read start path = tree.read start other := by
  rw [Tree.read, Tree.read, same]

end Sink
end SlotArray.Files
