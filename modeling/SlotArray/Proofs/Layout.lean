import Mathlib.Data.List.Induction
import Mathlib.Data.List.Nodup
import Mathlib.Data.List.Perm.Basic
import SlotArray.Proofs.ModuleTree

/-! A document as a sequence of steps, each in a module: modules are opened and closed, and
definitions are written. What has to hold of such a sequence is said here without the tree, and
proved of the steps that a tree takes. -/
namespace SlotArray

namespace Document

/-- What is written next. The path is that of the module opened or closed, or of the one that
the definition stands in. -/
inductive Step where
  | opening (path : List String)
  | definition (path : List String) (text : String)
  | closing (path : List String)

namespace Step

/-- How a step is written. The lines of a module stand at the depth of its parent. -/
def text : Step → List Char
  | .opening path => openingText (path.length - 1) (path.getLast?.getD "")
  | .definition path text => definitionText path.length text
  | .closing path => closingText (path.length - 1)

def opened? : Step → Option (List String)
  | .opening path => some path
  | _ => none

def closed? : Step → Option (List String)
  | .closing path => some path
  | _ => none

def written? : Step → Option (List String × String)
  | .definition path text => some (path, text)
  | _ => none

end Step

/-- The modules that steps open, in order. -/
def opened (steps : List Step) : List (List String) := steps.filterMap Step.opened?

/-- The modules that steps close, in order. -/
def closed (steps : List Step) : List (List String) := steps.filterMap Step.closed?

/-- The definitions that steps write, each with the module it stands in. -/
def written (steps : List Step) : List (List String × String) := steps.filterMap Step.written?

section Selections
variable {path : List String} {text : String} {steps more : List Step}

@[simp] theorem opened_nil : opened [] = [] := rfl
@[simp] theorem opened_opening : opened (.opening path :: steps) = path :: opened steps := rfl
@[simp] theorem opened_definition : opened (.definition path text :: steps) = opened steps := rfl
@[simp] theorem opened_closing : opened (.closing path :: steps) = opened steps := rfl
@[simp] theorem opened_append : opened (steps ++ more) = opened steps ++ opened more :=
  List.filterMap_append

@[simp] theorem closed_nil : closed [] = [] := rfl
@[simp] theorem closed_opening : closed (.opening path :: steps) = closed steps := rfl
@[simp] theorem closed_definition : closed (.definition path text :: steps) = closed steps := rfl
@[simp] theorem closed_closing : closed (.closing path :: steps) = path :: closed steps := rfl
@[simp] theorem closed_append : closed (steps ++ more) = closed steps ++ closed more :=
  List.filterMap_append

@[simp] theorem written_nil : written [] = [] := rfl
@[simp] theorem written_opening : written (.opening path :: steps) = written steps := rfl
@[simp] theorem written_definition :
    written (.definition path text :: steps) = (path, text) :: written steps := rfl
@[simp] theorem written_closing : written (.closing path :: steps) = written steps := rfl
@[simp] theorem written_append : written (steps ++ more) = written steps ++ written more :=
  List.filterMap_append

end Selections

/-- The definitions that steps write in one module. -/
def writtenIn (path : List String) (steps : List Step) : List String :=
  ((written steps).filter (·.1 = path)).map Prod.snd

theorem writtenIn_append (path : List String) (steps more : List Step) :
    writtenIn path (steps ++ more) = writtenIn path steps ++ writtenIn path more := by
  simp [writtenIn]

/-- Follows steps from the innermost open module to the one that is innermost afterwards. A module
is opened in the innermost one, only that one is closed, and only there a definition is written. -/
def follow (path : List String) : List Step → Option (List String)
  | [] => some path
  | .opening inner :: steps =>
    if inner ≠ [] ∧ inner.dropLast = path then follow inner steps else none
  | .definition home _ :: steps => if home = path then follow path steps else none
  | .closing inner :: steps =>
    if inner ≠ [] ∧ inner = path then follow path.dropLast steps else none

/-- The steps of a document that holds certain definitions: modules nest, none is opened twice,
each that is needed is opened and closed, and the definitions of a module stand in it as they
came in. -/
structure Layout (filings : List (ModulePath × String)) (steps : List Step) : Prop where
  nested : follow [] steps = some []
  opened_once : (opened steps).Nodup
  closed_once : (closed steps).Perm (opened steps)
  opened_iff (path : List String) :
    path ∈ opened steps ↔ path ≠ [] ∧ ∃ filing ∈ filings, path <+: filing.1.segments
  definitions (path : List String) :
    writtenIn path steps = (filings.filter (·.1.segments = path)).map Prod.snd

end Document

open Document (Step opened closed written writtenIn follow)

/-- The steps that write modules which stand side by side in the module `path`. -/
def Modules.steps (path : List String) : Modules → List Step
  | .none => []
  | .module name definitions inside later =>
    .opening (path ++ [name]) ::
      (definitions.map (.definition (path ++ [name])) ++ inside.steps (path ++ [name]) ++
        .closing (path ++ [name]) :: later.steps path)

/-- The steps that write a tree. -/
def ModuleTree.steps (tree : ModuleTree) : List Step :=
  tree.definitions.map (.definition []) ++ tree.modules.steps []

section Definitions
variable (path : List String) (definitions : List String)

private theorem opened_definitions : opened (definitions.map (.definition path)) = [] := by
  induction definitions with
  | nil => rfl
  | cons first rest ih => exact ih

private theorem closed_definitions : closed (definitions.map (.definition path)) = [] := by
  induction definitions with
  | nil => rfl
  | cons first rest ih => exact ih

theorem written_definitions :
    written (definitions.map (.definition path)) = definitions.map (path, ·) := by
  induction definitions with
  | nil => rfl
  | cons first rest ih => exact congrArg ((path, first) :: ·) ih

private theorem writtenIn_definitions (home : List String) :
    writtenIn home (definitions.map (.definition path)) = if path = home then definitions else [] := by
  rw [writtenIn, written_definitions]
  by_cases here : path = home
  · simp [here, List.filter_map, Function.comp_def]
  · simp [here, List.filter_map, Function.comp_def]

end Definitions

/-! ## Paths below a module -/

/-- Below one module, a path goes on with one name only. -/
theorem branch_unique {path inner : List String} {name other : String}
    (first : path ++ [name] <+: inner) (second : path ++ [other] <+: inner) : name = other := by
  have nested : path ++ [name] <+: path ++ [other] :=
    List.prefix_of_prefix_length_le first second (by simp)
  have same : path ++ [name] = path ++ [other] := nested.eq_of_length (by simp)
  simpa using same

/-- A prefix that is at least `path` stops there or goes on with the next name. -/
theorem prefix_cons_iff {path inner rest : List String} {name : String} :
    (path <+: inner ∧ inner <+: path ++ name :: rest) ↔
      inner = path ∨ (path ++ [name] <+: inner ∧ inner <+: path ++ name :: rest) := by
  constructor
  · rintro ⟨⟨more, rfl⟩, within⟩
    cases more with
    | nil => exact .inl (List.append_nil path)
    | cons other more =>
      have same : other = name :=
        (List.cons_prefix_cons.mp ((List.prefix_append_right_inj path).mp within)).1
      subst other
      exact .inr ⟨⟨more, by simp⟩, within⟩
  · rintro (rfl | ⟨⟨more, rfl⟩, within⟩)
    · exact ⟨List.prefix_rfl, List.prefix_append _ _⟩
    · exact ⟨⟨name :: more, by simp⟩, within⟩

/-- Paths that part at one module are in the order of the names they part with. -/
theorem branch_lt {path first second : List String} {name other : String} (order : name < other)
    (left : path ++ [name] <+: first) (right : path ++ [other] <+: second) : first < second := by
  obtain ⟨rest, rfl⟩ := left
  obtain ⟨more, rfl⟩ := right
  have parted : path ++ name :: rest < path ++ other :: more :=
    List.append_left_lt (List.cons_lt_cons_iff.mpr (.inl order))
  simpa using parted

namespace Modules
variable {path : List String} (name : String) (definitions : List String) (inside later : Modules)

theorem opened_steps :
    opened ((Modules.module name definitions inside later).steps path) =
      (path ++ [name]) :: (opened (inside.steps (path ++ [name])) ++ opened (later.steps path)) := by
  simp [steps, opened_definitions]

theorem closed_steps :
    closed ((Modules.module name definitions inside later).steps path) =
      closed (inside.steps (path ++ [name])) ++ (path ++ [name]) :: closed (later.steps path) := by
  simp [steps, closed_definitions]

theorem written_steps :
    written ((Modules.module name definitions inside later).steps path) =
      definitions.map (path ++ [name], ·) ++ written (inside.steps (path ++ [name])) ++
        written (later.steps path) := by
  simp [steps, written_definitions]

/-- Written out, the steps are the recursive rendering. -/
theorem flatMap_text_steps (modules : Modules) :
    (modules.steps path).flatMap Step.text = modules.text path.length := by
  induction modules generalizing path with
  | none => rfl
  | module name definitions inside later ihInside ihLater =>
    have depth : (path ++ [name]).length = path.length + 1 := by simp
    have own : (definitions.map (Step.definition (path ++ [name]))).flatMap Step.text =
        definitions.flatMap (Document.definitionText (path.length + 1)) := by
      rw [List.flatMap_map, ← depth]
      rfl
    rw [steps, List.flatMap_cons, List.flatMap_append, List.flatMap_append, List.flatMap_cons, own,
      ihInside, ihLater, depth, text]
    simp [Step.text]

/-- Following the steps of modules leads back to where they stand. -/
theorem follow_steps (modules : Modules) (rest : List Step) :
    follow path (modules.steps path ++ rest) = follow path rest := by
  induction modules generalizing path rest with
  | none => rfl
  | module name definitions inside later ihInside ihLater =>
    have own : ∀ (home : List String) (more : List Step),
        follow home (definitions.map (Step.definition home) ++ more) = follow home more := by
      intro home more
      induction definitions with
      | nil => rfl
      | cons first others ih => rw [List.map_cons, List.cons_append, follow, if_pos rfl, ih]
    have inner : path ++ [name] ≠ [] ∧ (path ++ [name]).dropLast = path := by simp
    rw [steps, List.cons_append, follow, if_pos inner, List.append_assoc, List.append_assoc, own,
      ihInside, List.cons_append, follow, if_pos ⟨inner.1, rfl⟩, inner.2, ihLater]

/-- What modules open lies below one of them. -/
theorem prefix_of_mem_opened {inner : List String} (modules : Modules)
    (mem : inner ∈ opened (modules.steps path)) :
    ∃ name ∈ modules.names, path ++ [name] <+: inner := by
  induction modules generalizing path with
  | none => exact nomatch mem
  | module name definitions inside later ihInside ihLater =>
    rw [opened_steps, List.mem_cons, List.mem_append] at mem
    rcases mem with rfl | mem | mem
    · exact ⟨name, List.mem_cons_self, List.prefix_rfl⟩
    · obtain ⟨_, _, below⟩ := ihInside mem
      exact ⟨name, List.mem_cons_self, (List.prefix_append _ _).trans below⟩
    · obtain ⟨other, known, below⟩ := ihLater mem
      exact ⟨other, List.mem_cons_of_mem _ known, below⟩

/-- What modules write stands in one of them or below. -/
theorem prefix_of_mem_written {filed : List String × String} (modules : Modules)
    (mem : filed ∈ written (modules.steps path)) :
    ∃ name ∈ modules.names, path ++ [name] <+: filed.1 := by
  induction modules generalizing path with
  | none => exact nomatch mem
  | module name definitions inside later ihInside ihLater =>
    rw [written_steps, List.mem_append, List.mem_append] at mem
    rcases mem with (mem | mem) | mem
    · obtain ⟨_, _, rfl⟩ := List.mem_map.mp mem
      exact ⟨name, List.mem_cons_self, List.prefix_rfl⟩
    · obtain ⟨_, _, below⟩ := ihInside mem
      exact ⟨name, List.mem_cons_self, (List.prefix_append _ _).trans below⟩
    · obtain ⟨other, known, below⟩ := ihLater mem
      exact ⟨other, List.mem_cons_of_mem _ known, below⟩

/-- Ascending siblings are distinct, so no module is opened twice. -/
theorem nodup_opened (modules : Modules) (ascending : modules.Ascending) :
    (opened (modules.steps path)).Nodup := by
  induction modules generalizing path with
  | none => exact List.nodup_nil
  | module name definitions inside later ihInside ihLater =>
    obtain ⟨inner, beside, above⟩ := ascending
    rw [opened_steps, List.nodup_cons, List.mem_append]
    refine ⟨?_, List.Nodup.append (ihInside inner) (ihLater beside) ?_⟩
    · rintro (mem | mem)
      · obtain ⟨_, _, below⟩ := prefix_of_mem_opened inside mem
        have longer := below.length_le
        simp at longer
      · obtain ⟨other, known, below⟩ := prefix_of_mem_opened later mem
        exact absurd (branch_unique List.prefix_rfl below) (ne_of_lt (above other known))
    · intro opening mem memLater
      obtain ⟨_, _, below⟩ := prefix_of_mem_opened inside mem
      obtain ⟨other, known, belowOther⟩ := prefix_of_mem_opened later memLater
      have shared := (List.prefix_append (path ++ [name]) _).trans below
      exact absurd (branch_unique shared belowOther) (ne_of_lt (above other known))

/-- What is opened is closed. -/
theorem closed_perm_opened (modules : Modules) :
    (closed (modules.steps path)).Perm (opened (modules.steps path)) := by
  induction modules generalizing path with
  | none => exact List.Perm.refl _
  | module name definitions inside later ihInside ihLater =>
    rw [opened_steps, closed_steps]
    exact List.perm_middle.trans ((ihInside.append ihLater).cons _)

private theorem prefix_self_iff {inner : List String} :
    (path <+: inner ∧ inner <+: path) ↔ inner = path := by
  constructor
  · rintro ⟨above, within⟩
    exact within.eq_of_length_le above.length_le
  · rintro rfl
    exact ⟨List.prefix_rfl, List.prefix_rfl⟩

/-- What a new chain of modules opens, besides what stands after it. -/
private theorem mem_opened_chain {inner : List String} (text : String) (later : Modules)
    (name : String) (rest : List String) :
    inner ∈ opened ((chain text later name rest).steps path) ↔
      inner ∈ opened (later.steps path) ∨
        (path ++ [name] <+: inner ∧ inner <+: path ++ name :: rest) := by
  induction rest generalizing name path later with
  | nil =>
    rw [prefix_self_iff, chain, opened_steps, List.mem_cons]
    exact or_comm
  | cons next rest ih =>
    have same : path ++ name :: next :: rest = path ++ [name] ++ next :: rest := by simp
    have nothing : inner ∉ opened (Modules.none.steps (path ++ [name])) := List.not_mem_nil
    rw [chain, opened_steps, List.mem_cons, List.mem_append, ih, same, prefix_cons_iff]
    tauto

/-- A definition that is filed adds the modules on the way to it. -/
theorem mem_opened_file {inner : List String} (text name : String) (rest : List String)
    (modules : Modules) :
    inner ∈ opened ((file text name rest modules).steps path) ↔
      inner ∈ opened (modules.steps path) ∨
        (path ++ [name] <+: inner ∧ inner <+: path ++ name :: rest) := by
  fun_induction file text name rest modules generalizing path with
  | case1 name rest => exact mem_opened_chain text .none name rest
  | case2 first definitions inside later =>
    rw [opened_steps, opened_steps, prefix_self_iff, List.mem_cons]
    tauto
  | case3 first definitions inside later next rest ih =>
    have same : path ++ first :: next :: rest = path ++ [first] ++ next :: rest := by simp
    rw [opened_steps, opened_steps, List.mem_cons, List.mem_append, ih, same, prefix_cons_iff,
      List.mem_cons, List.mem_append]
    tauto
  | case4 name rest first definitions inside later different below =>
    exact mem_opened_chain text _ name rest
  | case5 name rest first definitions inside later different notBelow ih =>
    rw [opened_steps, opened_steps, List.mem_cons, List.mem_append, ih, List.mem_cons,
      List.mem_append]
    tauto

/-- Modules write nothing in a module that is none of them and not inside one. -/
theorem writtenIn_steps_eq_nil {home : List String} (modules : Modules)
    (outside : ∀ name ∈ modules.names, ¬ path ++ [name] <+: home) :
    writtenIn home (modules.steps path) = [] := by
  have none_there : (written (modules.steps path)).filter (·.1 = home) = [] := by
    refine List.filter_eq_nil_iff.mpr fun filed mem there => ?_
    obtain ⟨name, known, below⟩ := prefix_of_mem_written modules mem
    exact outside name known (of_decide_eq_true there ▸ below)
  rw [writtenIn, none_there]
  rfl

private theorem writtenIn_steps_module {home : List String} :
    writtenIn home ((Modules.module name definitions inside later).steps path) =
      (if path ++ [name] = home then definitions else []) ++
        writtenIn home (inside.steps (path ++ [name])) ++ writtenIn home (later.steps path) := by
  have own := writtenIn_definitions (path ++ [name]) definitions home
  rw [← own, ← Document.writtenIn_append, ← Document.writtenIn_append, writtenIn, writtenIn,
    written_steps, Document.written_append, Document.written_append, written_definitions]

private theorem writtenIn_chain {home : List String} (text : String) (later : Modules)
    (name : String) (rest : List String) :
    writtenIn home ((chain text later name rest).steps path) =
      (if path ++ name :: rest = home then [text] else []) ++ writtenIn home (later.steps path) := by
  induction rest generalizing name path later with
  | nil =>
    rw [chain, writtenIn_steps_module]
    exact congrArg (· ++ _) (List.append_nil _)
  | cons next rest ih =>
    have same : path ++ name :: next :: rest = path ++ [name] ++ next :: rest := by simp
    have nothing : writtenIn home (Modules.none.steps (path ++ [name])) = [] := rfl
    rw [chain, writtenIn_steps_module, ih, same, nothing]
    simp

/-- Modules that come later write nothing into an earlier one. -/
private theorem writtenIn_behind {home : List String} {name : String} (modules : Modules)
    (behind : ∀ other ∈ modules.names, name < other) (below : path ++ [name] <+: home) :
    writtenIn home (modules.steps path) = [] := by
  refine writtenIn_steps_eq_nil modules fun other known belowOther => ?_
  exact absurd (branch_unique below belowOther) (ne_of_lt (behind other known))

/-- A definition that is filed is written last in its module, and nothing else changes. -/
theorem writtenIn_file {home : List String} (text name : String) (rest : List String)
    (modules : Modules) (ascending : modules.Ascending) :
    writtenIn home ((file text name rest modules).steps path) =
      writtenIn home (modules.steps path) ++ if path ++ name :: rest = home then [text] else [] := by
  fun_induction file text name rest modules generalizing path with
  | case1 name rest =>
    rw [writtenIn_chain]
    exact List.append_nil _
  | case2 first definitions inside later =>
    rw [writtenIn_steps_module, writtenIn_steps_module]
    by_cases here : path ++ [first] = home
    · subst home
      have noneInside : writtenIn (path ++ [first]) (inside.steps (path ++ [first])) = [] := by
        refine writtenIn_steps_eq_nil inside fun name _ below => ?_
        have longer := below.length_le
        simp at longer
      have noneLater := writtenIn_behind later ascending.2.2 (List.prefix_refl (path ++ [first]))
      simp [noneInside, noneLater]
    · simp [here]
  | case3 first definitions inside later next rest ih =>
    have same : path ++ first :: next :: rest = path ++ [first] ++ next :: rest := by simp
    rw [writtenIn_steps_module, writtenIn_steps_module, ih ascending.1, same]
    by_cases here : path ++ [first] ++ next :: rest = home
    · have belowFirst : path ++ [first] <+: home := here ▸ List.prefix_append _ _
      simp [writtenIn_behind later ascending.2.2 belowFirst]
    · rw [if_neg here, List.append_nil, List.append_nil]
  | case4 name rest first definitions inside later different below =>
    rw [writtenIn_chain]
    by_cases here : path ++ name :: rest = home
    · have belowName : path ++ [name] <+: home := ⟨rest, by simpa using here⟩
      simp [writtenIn_behind _ (lt_of_mem_names ascending below) belowName]
    · simp [here]
  | case5 name rest first definitions inside later different notBelow ih =>
    rw [writtenIn_steps_module, writtenIn_steps_module, ih ascending.2.1, List.append_assoc,
      List.append_assoc, List.append_assoc]

/-- Definitions are written in the order of their modules. -/
theorem pairwise_written (modules : Modules) (ascending : modules.Ascending) :
    (written (modules.steps path)).Pairwise (fun a b => ¬ b.1 < a.1) := by
  induction modules generalizing path with
  | none => exact List.Pairwise.nil
  | module name definitions inside later ihInside ihLater =>
    obtain ⟨inner, beside, above⟩ := ascending
    have within : ∀ filed ∈ definitions.map (path ++ [name], ·) ++
        written (inside.steps (path ++ [name])), path ++ [name] <+: filed.1 := by
      intro filed mem
      rcases List.mem_append.mp mem with mem | mem
      · obtain ⟨_, _, rfl⟩ := List.mem_map.mp mem
        exact List.prefix_rfl
      · obtain ⟨_, _, below⟩ := prefix_of_mem_written inside mem
        exact (List.prefix_append _ _).trans below
    rw [written_steps, List.pairwise_append, List.pairwise_append]
    refine ⟨⟨?_, ihInside inner, ?_⟩, ihLater beside, ?_⟩
    · exact List.pairwise_map.mpr (List.pairwise_of_forall fun _ _ => List.lt_irrefl _)
    · intro own ownMem deeper deeperMem
      obtain ⟨_, _, rfl⟩ := List.mem_map.mp ownMem
      exact (within deeper (List.mem_append_right _ deeperMem)).le
    · intro first firstMem second secondMem
      obtain ⟨other, known, below⟩ := prefix_of_mem_written later secondMem
      exact List.lt_asymm (branch_lt (above other known) (within first firstMem) below)

end Modules

namespace ModuleTree
variable {tree : ModuleTree} {filings : List (ModulePath × String)}

/-- The siblings of a tree ascend at every level, and no module is without a definition. -/
structure Sorted (tree : ModuleTree) : Prop where
  ascending : tree.modules.Ascending
  inhabited : tree.modules.Inhabited

theorem sorted_file (sorted : tree.Sorted) (text : String) (path : List String) :
    (tree.file text path).Sorted := by
  cases path with
  | nil => exact ⟨sorted.ascending, sorted.inhabited⟩
  | cons name path =>
    exact ⟨Modules.ascending_file name path tree.modules sorted.ascending,
      Modules.inhabited_file name path tree.modules sorted.inhabited⟩

theorem ofFilings_append_singleton (filing : ModulePath × String) :
    ofFilings (filings ++ [filing]) = (ofFilings filings).file filing.2 filing.1.segments := by
  simp [ofFilings]

theorem sorted_ofFilings (filings : List (ModulePath × String)) : (ofFilings filings).Sorted := by
  induction filings using List.reverseRecOn with
  | nil => exact ⟨trivial, trivial⟩
  | append_singleton filings filing ih =>
    rw [ofFilings_append_singleton]
    exact sorted_file ih filing.2 filing.1.segments

/-- Written out, the steps of a tree are its rendering. -/
theorem flatMap_text_steps (tree : ModuleTree) : tree.steps.flatMap Step.text = tree.text := by
  rw [steps, List.flatMap_append, Modules.flatMap_text_steps, List.flatMap_map]
  rfl

private theorem follow_definitions (path : List String) (definitions : List String)
    (rest : List Step) :
    follow path (definitions.map (Step.definition path) ++ rest) = follow path rest := by
  induction definitions with
  | nil => rfl
  | cons first others ih => rw [List.map_cons, List.cons_append, follow, if_pos rfl, ih]

theorem follow_steps (tree : ModuleTree) : follow [] tree.steps = some [] := by
  rw [steps, follow_definitions, ← List.append_nil (tree.modules.steps []), Modules.follow_steps]
  rfl

theorem opened_steps (tree : ModuleTree) : opened tree.steps = opened (tree.modules.steps []) := by
  rw [steps, Document.opened_append, opened_definitions, List.nil_append]

theorem closed_steps (tree : ModuleTree) : closed tree.steps = closed (tree.modules.steps []) := by
  rw [steps, Document.closed_append, closed_definitions, List.nil_append]

theorem mem_opened_file (tree : ModuleTree) (text : String) (path inner : List String) :
    inner ∈ opened (tree.file text path).steps ↔
      inner ∈ opened tree.steps ∨ (inner ≠ [] ∧ inner <+: path) := by
  rw [opened_steps, opened_steps]
  cases path with
  | nil =>
    rw [file, List.prefix_nil]
    tauto
  | cons name path =>
    have onTheWay : (inner ≠ [] ∧ inner <+: name :: path) ↔
        ([name] <+: inner ∧ inner <+: name :: path) := by
      have step := @prefix_cons_iff [] inner path name
      have start : ([] : List String) <+: inner := List.nil_prefix
      have proper : [name] <+: inner → inner ≠ [] := by
        rintro ⟨_, rfl⟩
        exact List.cons_ne_nil _ _
      simp only [List.nil_append] at step
      tauto
    rw [onTheWay]
    exact Modules.mem_opened_file text name path tree.modules

theorem writtenIn_file (sorted : tree.Sorted) (text : String) (path home : List String) :
    writtenIn home (tree.file text path).steps =
      writtenIn home tree.steps ++ if path = home then [text] else [] := by
  rw [steps, steps, Document.writtenIn_append, Document.writtenIn_append, writtenIn_definitions,
    writtenIn_definitions]
  cases path with
  | nil =>
    by_cases root : [] = home
    · subst home
      have noneInside : writtenIn [] (tree.modules.steps []) = [] := by
        refine Modules.writtenIn_steps_eq_nil tree.modules fun name _ below => ?_
        exact List.cons_ne_nil _ _ (List.prefix_nil.mp below)
      rw [file, noneInside]
      simp
    · simp [file, root]
  | cons name path =>
    rw [file, Modules.writtenIn_file text name path tree.modules sorted.ascending, List.nil_append,
      List.append_assoc]

/-- One more definition: it comes last in its module, and the modules on the way to it are there. -/
theorem layout_file (sorted : tree.Sorted) (layout : Document.Layout filings tree.steps)
    (filing : ModulePath × String) :
    Document.Layout (filings ++ [filing]) (tree.file filing.2 filing.1.segments).steps where
  nested := follow_steps _
  opened_once := by
    rw [opened_steps]
    exact Modules.nodup_opened _ (sorted_file sorted _ _).ascending
  closed_once := by
    rw [opened_steps, closed_steps]
    exact Modules.closed_perm_opened _
  opened_iff path := by
    rw [mem_opened_file, layout.opened_iff]
    constructor
    · rintro (⟨proper, known, mem, below⟩ | ⟨proper, below⟩)
      · exact ⟨proper, known, List.mem_append_left _ mem, below⟩
      · exact ⟨proper, filing, List.mem_append_right _ List.mem_cons_self, below⟩
    · rintro ⟨proper, known, mem, below⟩
      rcases List.mem_append.mp mem with mem | mem
      · exact .inl ⟨proper, known, mem, below⟩
      · exact .inr ⟨proper, List.mem_singleton.mp mem ▸ below⟩
  definitions path := by
    rw [writtenIn_file sorted, layout.definitions]
    by_cases here : filing.1.segments = path
    · simp [here]
    · simp [here]

/-- However definitions come in, the steps of their tree are a layout of them. -/
theorem layout_ofFilings (filings : List (ModulePath × String)) :
    Document.Layout filings (ofFilings filings).steps := by
  induction filings using List.reverseRecOn with
  | nil =>
    refine ⟨rfl, List.nodup_nil, List.Perm.refl _, fun path => ⟨?_, ?_⟩, fun path => rfl⟩
    · exact fun mem => nomatch mem
    · rintro ⟨_, _, mem, _⟩
      exact nomatch mem
  | append_singleton filings filing ih =>
    rw [ofFilings_append_singleton]
    exact layout_file (sorted_ofFilings filings) ih filing

end ModuleTree
end SlotArray
