import SlotArray.Proofs.Layout

/-! The rendering of a document walks its sections with the modules that are open. That is the
recursive rendering of the module tree, because sections ascend: all that lies below one module
stands together, so no module that was closed is needed again. -/
namespace SlotArray

/-- The document of definitions that are filed one after another. -/
def Document.ofFilings (filings : List (ModulePath × String)) : Document :=
  filings.foldl (fun document filing => document.append filing.1 filing.2) .empty

/-- The section of one module, unless it has no definitions of its own. -/
def ownSection (path definitions : List String) : List Section :=
  if definitions = [] then [] else [⟨⟨path⟩, definitions⟩]

/-- The sections of modules that stand side by side in the module `path`. -/
def Modules.sections (path : List String) : Modules → List Section
  | .none => []
  | .module name definitions inside later =>
    ownSection (path ++ [name]) definitions ++ inside.sections (path ++ [name]) ++
      later.sections path

/-- The sections of a tree. -/
def ModuleTree.sections (tree : ModuleTree) : List Section :=
  ownSection [] tree.definitions ++ tree.modules.sections []

/-- The next section, if any, comes behind a path. -/
def Follows (path : List String) (sections : List Section) : Prop :=
  ∀ part ∈ sections.head?, path < part.home.segments

/-- The next section, if any, is not below a module. -/
def Leaves (path : List String) (sections : List Section) : Prop :=
  ∀ part ∈ sections.head?, ¬ path <+: part.home.segments

variable {path home : List String} {sections more : List Section}

private theorem head_append {P : Section → Prop} (here : ∀ part ∈ sections, P part)
    (after : ∀ part ∈ more.head?, P part) : ∀ part ∈ (sections ++ more).head?, P part := by
  cases sections with
  | nil => exact after
  | cons first rest =>
    intro part mem
    cases mem
    exact here first List.mem_cons_self

theorem home_of_mem_ownSection {definitions : List String} {part : Section}
    (mem : part ∈ ownSection path definitions) : part.home.segments = path := by
  unfold ownSection at mem
  split at mem
  · exact nomatch mem
  · rw [List.mem_singleton.mp mem]

/-- A section of modules is one of them or below one. -/
theorem prefix_of_mem_sections {part : Section} (modules : Modules)
    (mem : part ∈ modules.sections path) :
    ∃ name ∈ modules.names, path ++ [name] <+: part.home.segments := by
  induction modules generalizing path with
  | none => exact nomatch mem
  | module name definitions inside later ihInside ihLater =>
    rw [Modules.sections, List.mem_append, List.mem_append] at mem
    rcases mem with (mem | mem) | mem
    · exact ⟨name, List.mem_cons_self, home_of_mem_ownSection mem ▸ List.prefix_rfl⟩
    · obtain ⟨_, _, below⟩ := ihInside mem
      exact ⟨name, List.mem_cons_self, (List.prefix_append _ _).trans below⟩
    · obtain ⟨other, known, below⟩ := ihLater mem
      exact ⟨other, List.mem_cons_of_mem _ known, below⟩

/-! ## Filing a definition -/

/-- A definition is filed behind every section that comes before its module. -/
theorem insert_append (text : String) (earlier : ∀ part ∈ sections, part.home.segments < home) :
    Document.insert ⟨home⟩ text (sections ++ more) =
      sections ++ Document.insert ⟨home⟩ text more := by
  induction sections with
  | nil => rfl
  | cons first rest ih =>
    have order := earlier first List.mem_cons_self
    have different : (⟨home⟩ : ModulePath) ≠ first.home := by
      intro same
      rw [← same] at order
      exact List.lt_irrefl home order
    have notBefore : ¬ (ModulePath.before ⟨home⟩ first.home = true) := by
      simpa [ModulePath.before] using List.lt_asymm order
    rw [List.cons_append, Document.insert, if_neg different, if_neg notBefore,
      ih fun part mem => earlier part (List.mem_cons_of_mem _ mem)]
    rfl

/-- It opens a section of its own in front of what comes behind its module. -/
theorem insert_of_follows (text : String) (follows : Follows home sections) :
    Document.insert ⟨home⟩ text sections = ⟨⟨home⟩, [text]⟩ :: sections := by
  cases sections with
  | nil => rfl
  | cons first rest =>
    have order : home < first.home.segments := follows first rfl
    have different : (⟨home⟩ : ModulePath) ≠ first.home := by
      intro same
      rw [← same] at order
      exact List.lt_irrefl home order
    have before : ModulePath.before ⟨home⟩ first.home = true := decide_eq_true order
    rw [Document.insert, if_neg different, if_pos before]

/-- It comes last in its own section; a section is made where there is none. -/
theorem insert_ownSection (text : String) (definitions : List String)
    (follows : Follows home more) :
    Document.insert ⟨home⟩ text (ownSection home definitions ++ more) =
      ownSection home (definitions ++ [text]) ++ more := by
  by_cases blank : definitions = []
  · subst blank
    exact insert_of_follows text follows
  · simp [ownSection, blank, Document.insert]

private theorem sections_chain (text : String) (later : Modules) (name : String)
    (rest : List String) :
    (Modules.chain text later name rest).sections path =
      ⟨⟨path ++ name :: rest⟩, [text]⟩ :: later.sections path := by
  induction rest generalizing name path later with
  | nil => rfl
  | cons next rest ih =>
    rw [Modules.chain, Modules.sections, ih]
    simp [ownSection, Modules.sections]

private theorem lt_of_below {name : String} {inner : List String}
    (below : path ++ [name] <+: inner) : path < inner := by
  obtain ⟨rest, rfl⟩ := below
  have step : path ++ [] < path ++ name :: rest := List.append_left_lt (List.nil_lt_cons _ _)
  simpa using step

/-- Every section of modules comes behind the module they stand in. -/
private theorem follows_sections (modules : Modules) (follows : Follows path more) :
    Follows path (modules.sections path ++ more) := by
  refine head_append (fun part mem => ?_) follows
  obtain ⟨_, _, below⟩ := prefix_of_mem_sections modules mem
  exact lt_of_below below

/-- Modules whose names come behind `name` come behind all that lies below it. -/
private theorem follows_sections_of_lt {name : String} {rest : List String} (modules : Modules)
    (behind : ∀ other ∈ modules.names, name < other) (follows : Follows (path ++ name :: rest) more) :
    Follows (path ++ name :: rest) (modules.sections path ++ more) := by
  refine head_append (fun part mem => ?_) follows
  obtain ⟨other, known, below⟩ := prefix_of_mem_sections modules mem
  exact branch_lt (behind other known) ⟨rest, by simp⟩ below

/-- Filing a definition into the sections of modules files it into the modules. -/
theorem insert_sections (text name : String) (rest : List String) (modules : Modules)
    (ascending : modules.Ascending) (follows : Follows (path ++ name :: rest) more) :
    Document.insert ⟨path ++ name :: rest⟩ text (modules.sections path ++ more) =
      (Modules.file text name rest modules).sections path ++ more := by
  fun_induction Modules.file text name rest modules generalizing path more with
  | case1 name rest =>
    rw [sections_chain]
    exact insert_of_follows text follows
  | case2 first definitions inside later =>
    have behindLater := follows_sections_of_lt later ascending.2.2 follows
    have behind := follows_sections inside behindLater
    have own := insert_ownSection text definitions behind
    simpa [Modules.sections] using own
  | case3 first definitions inside later next rest ih =>
    have same : path ++ first :: next :: rest = path ++ [first] ++ next :: rest := by simp
    have behindLater : Follows (path ++ [first] ++ next :: rest) (later.sections path ++ more) := by
      rw [← same]
      exact follows_sections_of_lt later ascending.2.2 follows
    have earlier : ∀ part ∈ ownSection (path ++ [first]) definitions,
        part.home.segments < path ++ [first] ++ next :: rest := by
      intro part mem
      rw [home_of_mem_ownSection mem]
      have next_below : path ++ [first] ++ [next] <+: path ++ [first] ++ next :: rest := ⟨rest, by simp⟩
      exact lt_of_below next_below
    have filed := ih ascending.1 behindLater
    rw [Modules.sections, Modules.sections, List.append_assoc, List.append_assoc, List.append_assoc,
      List.append_assoc, same, insert_append text earlier, filed]
  | case4 name rest first definitions inside later different below =>
    rw [sections_chain]
    exact insert_of_follows text
      (follows_sections_of_lt _ (Modules.lt_of_mem_names ascending below) follows)
  | case5 name rest first definitions inside later different notBelow ih =>
    have order : first < name := lt_of_le_of_ne (not_lt.mp notBelow) (Ne.symm different)
    have belowName : path ++ [name] <+: path ++ name :: rest := ⟨rest, by simp⟩
    have earlier : ∀ part ∈ ownSection (path ++ [first]) definitions ++
        inside.sections (path ++ [first]), part.home.segments < path ++ name :: rest := by
      intro part mem
      rcases List.mem_append.mp mem with mem | mem
      · exact branch_lt order (home_of_mem_ownSection mem ▸ List.prefix_rfl) belowName
      · obtain ⟨_, _, below⟩ := prefix_of_mem_sections inside mem
        exact branch_lt order ((List.prefix_append _ _).trans below) belowName
    have filed := ih ascending.2.1 follows
    rw [Modules.sections, Modules.sections, List.append_assoc (_ ++ _), insert_append text earlier,
      filed, List.append_assoc (_ ++ _)]

theorem insert_sections_tree {tree : ModuleTree} (sorted : tree.Sorted) (text : String)
    (path : List String) :
    Document.insert ⟨path⟩ text tree.sections = (tree.file text path).sections := by
  have nothingMore : ∀ path : List String, Follows path [] := fun _ _ mem => nomatch mem
  cases path with
  | nil =>
    have behind := follows_sections tree.modules (nothingMore [])
    rw [List.append_nil] at behind
    exact insert_ownSection text tree.definitions behind
  | cons name path =>
    have earlier : ∀ part ∈ ownSection [] tree.definitions, part.home.segments < name :: path := by
      intro part mem
      rw [home_of_mem_ownSection mem]
      exact List.nil_lt_cons name path
    have filed := insert_sections text name path tree.modules sorted.ascending
      (nothingMore ([] ++ name :: path))
    rw [List.append_nil, List.append_nil] at filed
    rw [ModuleTree.sections, insert_append text earlier]
    exact congrArg (ownSection [] tree.definitions ++ ·) filed

/-- The sections of a document are those of its tree. -/
theorem sections_ofFilings (filings : List (ModulePath × String)) :
    (Document.ofFilings filings).sections = (ModuleTree.ofFilings filings).sections := by
  induction filings using List.reverseRecOn with
  | nil => rfl
  | append_singleton filings filing ih =>
    have last : (Document.ofFilings (filings ++ [filing])) =
        (Document.ofFilings filings).append filing.1 filing.2 := by simp [Document.ofFilings]
    rw [last, Document.append, ih, ModuleTree.ofFilings_append_singleton]
    exact insert_sections_tree (ModuleTree.sorted_ofFilings filings) filing.2 filing.1.segments

/-! ## Walking the sections -/

open Document (sharedDepth closeTo openFrom openingText closingText definitionText sectionsText)

private theorem sharedDepth_append (path rest : List String) :
    sharedDepth path (path ++ rest) = path.length := by
  induction path with
  | nil => cases rest <;> rfl
  | cons name path ih => rw [List.cons_append, sharedDepth, if_pos rfl, ih, List.length_cons]

private theorem sharedDepth_le (path segments : List String) :
    sharedDepth path segments ≤ path.length := by
  induction path generalizing segments with
  | nil => cases segments <;> exact Nat.le_refl _
  | cons name path ih =>
    cases segments with
    | nil => exact Nat.zero_le _
    | cons first rest =>
      rw [sharedDepth]
      split
      · exact Nat.succ_le_succ (ih rest)
      · exact Nat.zero_le _

/-- A module that a path does not go through is not shared with it. -/
private theorem sharedDepth_concat {path segments : List String} {name : String}
    (leaves : ¬ path ++ [name] <+: segments) :
    sharedDepth (path ++ [name]) segments = sharedDepth path segments := by
  induction path generalizing segments with
  | nil =>
    cases segments with
    | nil => rfl
    | cons first rest =>
      have different : name ≠ first := by
        rintro rfl
        exact leaves ⟨rest, rfl⟩
      rw [List.nil_append, sharedDepth, if_neg different]
      rfl
  | cons own path ih =>
    cases segments with
    | nil => rfl
    | cons first rest =>
      rw [List.cons_append, sharedDepth, sharedDepth]
      split
      · rename_i same
        subst own
        exact congrArg (· + 1) (ih fun below => leaves ((List.prefix_cons_inj first).mpr below))
      · rfl

private theorem closeTo_self (depth : Nat) : closeTo depth depth = [] := by
  cases depth with
  | zero => rfl
  | succ n => rw [closeTo, if_pos (Nat.lt_succ_self n)]

/-- With the module of the next section open, its definitions are written. -/
theorem sectionsText_ownSection (path definitions : List String) (more : List Section) :
    sectionsText path (ownSection path definitions ++ more) =
      definitions.flatMap (definitionText path.length) ++ sectionsText path more := by
  by_cases blank : definitions = []
  · subst blank
    rfl
  · have shared : sharedDepth path path = path.length := by
      simpa using sharedDepth_append path []
    simp [ownSection, blank, sectionsText, shared, closeTo_self, openFrom]

/-- A module is opened when the next section lies in it. -/
theorem sectionsText_open {name : String} {part : Section}
    (below : path ++ [name] <+: part.home.segments) :
    sectionsText path (part :: more) =
      openingText path.length name ++ sectionsText (path ++ [name]) (part :: more) := by
  obtain ⟨rest, segments⟩ := below
  have flat : part.home.segments = path ++ name :: rest := by simp [← segments]
  have length : (path ++ [name]).length = path.length + 1 := by simp
  have shared : sharedDepth path part.home.segments = path.length := by
    rw [flat, sharedDepth_append]
  have sharedInside : sharedDepth (path ++ [name]) part.home.segments = path.length + 1 := by
    rw [← segments, sharedDepth_append, length]
  have rest_inside : part.home.segments.drop (path.length + 1) = rest := by
    rw [← segments, ← length, List.drop_left]
  have rest_outside : part.home.segments.drop path.length = name :: rest := by
    rw [flat, List.drop_left]
  simp only [sectionsText, shared, sharedInside, length, closeTo_self, rest_inside, rest_outside,
    openFrom, List.nil_append, List.append_assoc]

/-- A module is closed when the next section does not lie in it. -/
theorem sectionsText_close {name : String} (leaves : Leaves (path ++ [name]) more) :
    sectionsText (path ++ [name]) more = closingText path.length ++ sectionsText path more := by
  have length : (path ++ [name]).length = path.length + 1 := by simp
  have close : ∀ depth, depth ≤ path.length →
      closeTo depth (path.length + 1) = closingText path.length ++ closeTo depth path.length :=
    fun depth le => if_neg (Nat.not_lt.mpr le)
  cases more with
  | nil => rw [sectionsText, sectionsText, length, close 0 (Nat.zero_le _)]
  | cons part rest =>
    have shared := sharedDepth_concat (leaves part rfl)
    rw [sectionsText, sectionsText, length, shared, close _ (sharedDepth_le _ _)]
    simp only [List.append_assoc]

/-- Modules have a section if there are any modules, since each has a definition. -/
private theorem sections_ne_nil (modules : Modules) (inhabited : modules.Inhabited)
    (any : modules.names ≠ []) : modules.sections path ≠ [] := by
  induction modules generalizing path with
  | none => exact absurd rfl any
  | module name definitions inside later ihInside ihLater =>
    obtain ⟨filled | filled, inner, beside⟩ := inhabited
    · simp [Modules.sections, ownSection, filled]
    · have found := @ihInside (path ++ [name]) inner filled
      simp [Modules.sections, found]

private theorem head_below {sections : List Section} (some : sections ≠ [])
    (below : ∀ part ∈ sections, path <+: part.home.segments) (more : List Section) :
    ∃ part rest, sections ++ more = part :: rest ∧ path <+: part.home.segments := by
  cases sections with
  | nil => exact absurd rfl some
  | cons part rest => exact ⟨part, rest ++ more, rfl, below part List.mem_cons_self⟩

/-- Walking the sections of modules writes the modules, whatever comes after them elsewhere. -/
theorem sectionsText_sections (modules : Modules) (ascending : modules.Ascending)
    (inhabited : modules.Inhabited) (leaves : ∀ name ∈ modules.names, Leaves (path ++ [name]) more) :
    sectionsText path (modules.sections path ++ more) =
      modules.text path.length ++ sectionsText path more := by
  induction modules generalizing path more with
  | none => rfl
  | module name definitions inside later ihInside ihLater =>
    obtain ⟨inner, beside, above⟩ := ascending
    have length : (path ++ [name]).length = path.length + 1 := by simp
    -- What lies in this module stands first and has a section, so the module is opened for it.
    have here : ∀ part ∈ ownSection (path ++ [name]) definitions ++
        inside.sections (path ++ [name]), path ++ [name] <+: part.home.segments := by
      intro part mem
      rcases List.mem_append.mp mem with mem | mem
      · exact home_of_mem_ownSection mem ▸ List.prefix_rfl
      · obtain ⟨_, _, below⟩ := prefix_of_mem_sections inside mem
        exact (List.prefix_append _ _).trans below
    have any : ownSection (path ++ [name]) definitions ++ inside.sections (path ++ [name]) ≠ [] := by
      rcases inhabited.1 with filled | filled
      · simp [ownSection, filled]
      · have found := @sections_ne_nil (path ++ [name]) inside inhabited.2.1 filled
        simp [found]
    -- Whatever comes after it lies elsewhere, so the module is closed behind it.
    have leavesName : Leaves (path ++ [name]) (later.sections path ++ more) := by
      refine head_append (fun part mem => ?_) (leaves name List.mem_cons_self)
      obtain ⟨other, known, below⟩ := prefix_of_mem_sections later mem
      exact fun same => absurd (branch_unique same below) (ne_of_lt (above other known))
    have leavesInside : ∀ next ∈ inside.names,
        Leaves (path ++ [name] ++ [next]) (later.sections path ++ more) :=
      fun _ _ part mem below => leavesName part mem ((List.prefix_append _ _).trans below)
    have leavesLater : ∀ other ∈ later.names, Leaves (path ++ [other]) more :=
      fun other known => leaves other (List.mem_cons_of_mem _ known)
    obtain ⟨part, rest, split, below⟩ := head_below any here (later.sections path ++ more)
    calc sectionsText path ((Modules.module name definitions inside later).sections path ++ more)
        = sectionsText path (part :: rest) := by
          rw [Modules.sections, List.append_assoc (_ ++ _), split]
      _ = openingText path.length name ++ sectionsText (path ++ [name]) (part :: rest) :=
          sectionsText_open below
      _ = openingText path.length name ++
            (definitions.flatMap (definitionText (path.length + 1)) ++
              (inside.text (path.length + 1) ++
                sectionsText (path ++ [name]) (later.sections path ++ more))) := by
          rw [← split, List.append_assoc, sectionsText_ownSection,
            ihInside inner inhabited.2.1 leavesInside, length]
      _ = (Modules.module name definitions inside later).text path.length ++
            sectionsText path more := by
          rw [sectionsText_close leavesName, ihLater beside inhabited.2.2 leavesLater, Modules.text]
          simp only [List.append_assoc]

/-- The rendering of a document is the recursive rendering of its tree. -/
theorem render_ofFilings (filings : List (ModulePath × String)) :
    (Document.ofFilings filings).render =
      Document.prologue ++ String.ofList (ModuleTree.ofFilings filings).text := by
  have sorted := ModuleTree.sorted_ofFilings filings
  have nothingMore : ∀ name ∈ (ModuleTree.ofFilings filings).modules.names,
      Leaves ([] ++ [name]) [] := fun _ _ _ mem => nomatch mem
  have modules := sectionsText_sections (ModuleTree.ofFilings filings).modules sorted.ascending
    sorted.inhabited nothingMore
  rw [List.append_nil] at modules
  rw [Document.render, sections_ofFilings, ModuleTree.sections, sectionsText_ownSection, modules]
  congr 2
  exact congrArg (_ ++ ·) (List.append_nil _)

/-- However definitions are filed, the document's text is the recursive rendering of their module
tree: the prologue, then in each module its definitions as they came in, then the modules inside
it, ascending. Written out step by step, that rendering opens and closes each module on the way to
a definition once, one inside another, and writes each definition once, in its own module. -/
theorem render_is_tree_rendering (filings : List (ModulePath × String)) :
    (Document.ofFilings filings).render =
        Document.prologue ++ String.ofList (ModuleTree.ofFilings filings).text ∧
      (ModuleTree.ofFilings filings).modules.Ascending ∧
      (ModuleTree.ofFilings filings).text =
        (ModuleTree.ofFilings filings).steps.flatMap Document.Step.text ∧
      Document.Layout filings (ModuleTree.ofFilings filings).steps :=
  ⟨render_ofFilings filings, (ModuleTree.sorted_ofFilings filings).ascending,
    (ModuleTree.flatMap_text_steps _).symm, ModuleTree.layout_ofFilings filings⟩

end SlotArray
