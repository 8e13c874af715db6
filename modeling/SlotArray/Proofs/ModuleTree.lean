import Mathlib.Data.List.Lex
import Mathlib.Data.String.Basic
import SlotArray.Document

/-! The modules of a document as a tree, and its plain recursive rendering. The tree knows
nothing of open and closed modules: a module is what it holds, and is written around it. -/
namespace SlotArray

/-- Modules that stand side by side: the first one with its own definitions and the modules
inside it, then the later ones. -/
inductive Modules where
  | none
  | module (name : String) (definitions : List String) (inside later : Modules)
deriving Repr

/-- Everything a document holds: the definitions outside all modules, and the modules. -/
structure ModuleTree where
  definitions : List String
  modules : Modules
deriving Repr

namespace Modules

/-- Modules one in another, with one definition in the last; `later` stands beside the first. -/
def chain (text : String) (later : Modules) : String → List String → Modules
  | name, [] => .module name [text] .none later
  | name, inner :: path => .module name [] (chain text .none inner path) later

/-- Files a definition under the module `name`, below that under `path`. Modules that are missing
are made, each at the place its name has among its siblings. -/
def file (text : String) : String → List String → Modules → Modules
  | name, path, .none => chain text .none name path
  | name, path, .module first definitions inside later =>
    if name = first then
      match path with
      | [] => .module first (definitions ++ [text]) inside later
      | inner :: path => .module first definitions (file text inner path inside) later
    else if name < first then chain text (.module first definitions inside later) name path
    else .module first definitions inside (file text name path later)

/-- The names of the modules that stand side by side, those inside them left out. -/
def names : Modules → List String
  | .none => []
  | .module name _ _ later => name :: later.names

/-- Siblings ascend by their names, at every level. -/
def Ascending : Modules → Prop
  | .none => True
  | .module name _ inside later =>
    inside.Ascending ∧ later.Ascending ∧ ∀ other ∈ later.names, name < other

/-- Each module has a definition, in itself or in a module inside it. -/
def Inhabited : Modules → Prop
  | .none => True
  | .module _ definitions inside later =>
    (definitions ≠ [] ∨ inside.names ≠ []) ∧ inside.Inhabited ∧ later.Inhabited

/-- The text of modules that stand at a depth: each between its opening and its closing line, its
definitions first, then the modules inside it. -/
def text (depth : Nat) : Modules → List Char
  | .none => []
  | .module name definitions inside later =>
    Document.openingText depth name ++
      (definitions.flatMap (Document.definitionText (depth + 1)) ++ inside.text (depth + 1)) ++
      Document.closingText depth ++ later.text depth

end Modules

namespace ModuleTree

def empty : ModuleTree := ⟨[], .none⟩

/-- Files a definition under a module path. -/
def file (tree : ModuleTree) (text : String) : List String → ModuleTree
  | [] => { tree with definitions := tree.definitions ++ [text] }
  | name :: path => { tree with modules := tree.modules.file text name path }

/-- The tree of definitions that are filed one after another. -/
def ofFilings (filings : List (ModulePath × String)) : ModuleTree :=
  filings.foldl (fun tree filing => tree.file filing.2 filing.1.segments) .empty

/-- The text of a tree: the definitions outside all modules, then the modules. -/
def text (tree : ModuleTree) : List Char :=
  tree.definitions.flatMap (Document.definitionText 0) ++ tree.modules.text 0

end ModuleTree

namespace Modules
variable {text : String}

private theorem names_chain (later : Modules) (name : String) (path : List String) :
    (chain text later name path).names = name :: later.names := by
  cases path <;> rfl

/-- Filing adds one name to the siblings, and only if it is missing. -/
theorem mem_names_file {other : String} (name : String) (path : List String) (modules : Modules) :
    other ∈ (file text name path modules).names ↔ other = name ∨ other ∈ modules.names := by
  fun_induction file text name path modules with
  | case1 name path => rw [names_chain]; exact List.mem_cons
  | case2 first definitions inside later => simp [names]
  | case3 first definitions inside later inner path ih => simp [names]
  | case4 name path first definitions inside later different below =>
    rw [names_chain]
    exact List.mem_cons
  | case5 name path first definitions inside later different notBelow ih =>
    rw [names, names, List.mem_cons, ih, List.mem_cons]
    exact or_left_comm

/-- What is before the first of ascending siblings is before all of them. -/
theorem lt_of_mem_names {name first : String} {definitions : List String} {inside later : Modules}
    (ascending : (Modules.module first definitions inside later).Ascending) (below : name < first) :
    ∀ other ∈ (Modules.module first definitions inside later).names, name < other := by
  intro other mem
  rcases List.mem_cons.mp mem with rfl | mem
  · exact below
  · exact lt_trans below (ascending.2.2 other mem)

private theorem ascending_chain {later : Modules} {name : String} (path : List String)
    (ascending : later.Ascending) (above : ∀ other ∈ later.names, name < other) :
    (chain text later name path).Ascending := by
  induction path generalizing name later with
  | nil => exact ⟨trivial, ascending, above⟩
  | cons inner path ih => exact ⟨ih trivial (fun _ mem => nomatch mem), ascending, above⟩

/-- Siblings still ascend when one more definition is filed. -/
theorem ascending_file (name : String) (path : List String) (modules : Modules)
    (ascending : modules.Ascending) : (file text name path modules).Ascending := by
  fun_induction file text name path modules with
  | case1 name path => exact ascending_chain path trivial fun _ mem => nomatch mem
  | case2 first definitions inside later => exact ascending
  | case3 first definitions inside later inner path ih =>
    exact ⟨ih ascending.1, ascending.2⟩
  | case4 name path first definitions inside later different below =>
    exact ascending_chain path ascending (lt_of_mem_names ascending below)
  | case5 name path first definitions inside later different notBelow ih =>
    refine ⟨ascending.1, ih ascending.2.1, ?_⟩
    intro other mem
    rcases (mem_names_file name path later).mp mem with rfl | mem
    · exact lt_of_le_of_ne (not_lt.mp notBelow) (Ne.symm different)
    · exact ascending.2.2 other mem

private theorem inhabited_chain {later : Modules} {name : String} (path : List String)
    (inhabited : later.Inhabited) : (chain text later name path).Inhabited := by
  induction path generalizing name later with
  | nil => exact ⟨.inl (List.cons_ne_nil _ _), trivial, inhabited⟩
  | cons inner path ih =>
    refine ⟨.inr ?_, ih trivial, inhabited⟩
    rw [names_chain]
    exact List.cons_ne_nil _ _

/-- A module is made only for a definition, so none is ever without one. -/
theorem inhabited_file (name : String) (path : List String) (modules : Modules)
    (inhabited : modules.Inhabited) : (file text name path modules).Inhabited := by
  fun_induction file text name path modules with
  | case1 name path => exact inhabited_chain path trivial
  | case2 first definitions inside later =>
    have filled : definitions ++ [text] ≠ [] := by simp
    exact ⟨.inl filled, inhabited.2⟩
  | case3 first definitions inside later inner path ih =>
    have filled : inner ∈ (file text inner path inside).names :=
      (mem_names_file inner path inside).mpr (.inl rfl)
    exact ⟨.inr (List.ne_nil_of_mem filled), ih inhabited.2.1, inhabited.2.2⟩
  | case4 name path first definitions inside later different below =>
    exact inhabited_chain path inhabited
  | case5 name path first definitions inside later different notBelow ih =>
    exact ⟨inhabited.1, inhabited.2.1, ih inhabited.2.2⟩

end Modules
end SlotArray
