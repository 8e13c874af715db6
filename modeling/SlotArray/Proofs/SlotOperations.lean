import Mathlib.Data.List.Basic
import SlotArray.Proofs.Blueprint
import SlotArray.Proofs.Walks

/-! A container is a list of its elements, whatever is done with it. That is so of the containers here,
and of the type that the text of a container declares, with a field for each slot and a table for each
operation. Both ways to an operation, the type's own and the one that all containers have, do the
same. -/
namespace SlotArray
open Definition

/-! ## What can be done with a container -/

/-- The two ways to an operation: the type's own, and the one that all containers have. -/
inductive Route where
  | own
  | common

/-- What can be done with a container of elements. -/
inductive SlotUse (α : Type) where
  | get (route : Route) (index : Nat)
  /-- Stores an element in a slot that is lent for it. -/
  | write (route : Route) (index : Nat) (value : α)
  | set (route : Route) (index : Nat) (value : α)
  | index (index : Nat)
  | indexSet (index : Nat) (value : α)
  | toList (route : Route)
  /-- Takes a copy apart. -/
  | intoList (route : Route)
  | length (route : Route)
  /-- Makes moves on a walk and its copies, and collects what they leave. -/
  | walk (moves : List (CopyStep Move))

/-- What that answers. Where it panics, the answer is the text it panics with. -/
inductive SlotAnswer (α : Type) where
  | element (found : Option α)
  | replaced (result : Except IndexOutOfRange α)
  | indexed (result : Except String α)
  | stored (result : Except String Unit)
  | elements (all : List α)
  | length (count : Nat)
  | walked (answers : List (Option (Option α))) (left : List (List α))

/-- What does the operations: the type's own functions, those that make it one of the containers, and
its operators. -/
structure Interface (σ α : Type) where
  own : Access σ α
  common : Access σ α
  set : σ → Nat → α → Except IndexOutOfRange (α × σ)
  toList : σ → List α
  index : σ → Nat → Except IndexOutOfRange α
  indexSet : σ → Nat → α → Except IndexOutOfRange σ

namespace Interface
variable {σ α : Type}

/-- The functions on a route. -/
def via (i : Interface σ α) : Route → Access σ α
  | .own => i.own
  | .common => i.common

/-- Storing on a route. -/
def setVia (i : Interface σ α) : Route → σ → Nat → α → Except IndexOutOfRange (α × σ)
  | .own => i.set
  | .common => i.common.set

/-- Does one thing with a container. Nothing is changed by what fails. -/
def perform (i : Interface σ α) : SlotUse α → σ → SlotAnswer α × σ
  | .get route index, array => (.element ((i.via route).get array index), array)
  | .write route index value, array =>
    match (i.via route).lend array index with
    | some (old, write) => (.element (some old), write value)
    | none => (.element none, array)
  | .set route index value, array =>
    match i.setVia route array index value with
    | .ok (old, after) => (.replaced (.ok old), after)
    | .error error => (.replaced (.error error), array)
  | .index index, array => (.indexed ((i.index array index).mapError (·.message)), array)
  | .indexSet index value, array =>
    match i.indexSet array index value with
    | .ok after => (.stored (.ok ()), after)
    | .error error => (.stored (.error error.message), array)
  | .toList .own, array => (.elements (i.toList array), array)
  | .toList .common, array => (.elements (i.common.toList array), array)
  | .intoList route, array => (.elements ((i.via route).intoList array), array)
  | .length route, array => (.length (i.via route).length, array)
  | .walk moves, array =>
    let walks := Copies.run (Cursor.take i.common) [Cursor.start i.common array] moves
    (.walked walks.1 (walks.2.map (Cursor.toList i.common)), array)

end Interface

/-- What a container does. -/
def Container.interface {α : Type} {n : Nat} : Interface (Container α n) α :=
  ⟨access, access, set, toList, index, indexSet⟩

/-- An element of a list, or the error for its index. -/
def listIndex {α : Type} (elements : List α) (index : Nat) : Except IndexOutOfRange α :=
  match elements[index]? with
  | some value => .ok value
  | none => .error ⟨index, elements.length⟩

/-- The same on a list. It does not matter which way an operation is reached. -/
def listPerform {α : Type} : SlotUse α → List α → SlotAnswer α × List α
  | .get _ index, elements => (.element elements[index]?, elements)
  | .write _ index value, elements => (.element elements[index]?, elements.set index value)
  | .set _ index value, elements => (.replaced (listIndex elements index), elements.set index value)
  | .index index, elements => (.indexed ((listIndex elements index).mapError (·.message)), elements)
  | .indexSet index value, elements =>
    (.stored (((listIndex elements index).map fun _ => ()).mapError (·.message)),
      elements.set index value)
  | .toList _, elements => (.elements elements, elements)
  | .intoList _, elements => (.elements elements, elements)
  | .length _, elements => (.length elements.length, elements)
  | .walk moves, elements =>
    let lists := Copies.run takeOff [elements] moves
    (.walked lists.1 lists.2, elements)

/-! ## Operations that are those of a list -/

/-- Where a container has the elements of a list, its operations find them and keep it so. -/
structure Interface.Presents {σ α : Type} (i : Interface σ α) (R : σ → List α → Prop) : Prop where
  length_eq : ∀ route array elements, R array elements → (i.via route).length = elements.length
  get_eq : ∀ route array elements, R array elements → ∀ index,
    (i.via route).get array index = elements[index]?
  lend_cases : ∀ route array elements, R array elements → ∀ index,
    (elements[index]? = none ∧ (i.via route).lend array index = none) ∨
      ∃ old write, elements[index]? = some old ∧ (i.via route).lend array index = some (old, write) ∧
        ∀ value, R (write value) (elements.set index value)
  intoList_eq : ∀ route array elements, R array elements → (i.via route).intoList array = elements
  toList_eq : ∀ array elements, R array elements → i.toList array = elements
  set_eq : ∀ array elements, R array elements → ∀ index value,
    i.set array index value = i.common.set array index value
  index_eq : ∀ array elements, R array elements → ∀ index, i.index array index =
    match i.own.get array index with
    | some value => .ok value
    | none => .error ⟨index, i.own.length⟩
  indexSet_eq : ∀ array elements, R array elements → ∀ index value, i.indexSet array index value =
    match i.own.lend array index with
    | some (_, write) => .ok (write value)
    | none => .error ⟨index, i.own.length⟩

namespace Interface.Presents
variable {σ α : Type} {i : Interface σ α} {R : σ → List α → Prop} {array : σ} {elements : List α}

/-- A walk over the container has the list in front of it. -/
theorem shows (presents : i.Presents R) (related : R array elements) :
    Shows i.common (Cursor.start i.common array) elements :=
  .of_getElem? (presents.length_eq .common _ _ related) (presents.get_eq .common _ _ related)

/-- Storing, on either route, agrees with storing in the list. -/
theorem setVia_cases (presents : i.Presents R) (related : R array elements) (route : Route)
    (index : Nat) (value : α) :
    (elements[index]? = none ∧
      i.setVia route array index value = .error ⟨index, elements.length⟩) ∨
      ∃ old after, elements[index]? = some old ∧
        i.setVia route array index value = .ok (old, after) ∧ R after (elements.set index value) := by
  have common : i.setVia route array index value = i.common.set array index value := by
    cases route with
    | own => exact presents.set_eq _ _ related index value
    | common => rfl
  rw [common, Access.set]
  obtain ⟨missing, unlent⟩ | ⟨old, write, found, lent, after⟩ :=
    presents.lend_cases .common _ _ related index
  · have length := presents.length_eq .common _ _ related
    simp only [via] at unlent length
    exact .inl ⟨missing, by rw [unlent, length]⟩
  · simp only [via] at lent
    exact .inr ⟨old, write value, found, by rw [lent], after value⟩

/-- Whatever is done answers as it does on the list, and leaves the elements that it leaves there. -/
theorem perform_related (presents : i.Presents R) (use : SlotUse α) (array : σ) (elements : List α)
    (related : R array elements) :
    (i.perform use array).1 = (listPerform use elements).1 ∧
      R (i.perform use array).2 (listPerform use elements).2 := by
  have unchanged {index : Nat} (missing : elements[index]? = none) (value : α) :
      elements.set index value = elements :=
    List.set_eq_of_length_le (List.getElem?_eq_none_iff.mp missing)
  cases use with
  | get route index => exact ⟨congrArg _ (presents.get_eq route _ _ related index), related⟩
  | write route index value =>
    obtain ⟨missing, unlent⟩ | ⟨old, write, found, lent, after⟩ :=
      presents.lend_cases route _ _ related index
    · simp only [perform, listPerform, unlent, missing, unchanged missing, related, and_self]
    · simp only [perform, listPerform, lent, found, after, and_self]
  | set route index value =>
    obtain ⟨missing, failed⟩ | ⟨old, after, found, stored, kept⟩ :=
      presents.setVia_cases related route index value
    · simp only [perform, listPerform, listIndex, failed, missing, unchanged missing, related, and_self]
    · simp only [perform, listPerform, listIndex, stored, found, kept, and_self]
  | index index =>
    have got := presents.get_eq .own _ _ related index
    have length := presents.length_eq .own _ _ related
    simp only [via] at got length
    refine ⟨?_, related⟩
    simp only [perform, listPerform, listIndex, presents.index_eq _ _ related, got, length]
  | indexSet index value =>
    have length := presents.length_eq .own _ _ related
    obtain ⟨missing, unlent⟩ | ⟨old, write, found, lent, after⟩ :=
      presents.lend_cases .own _ _ related index
    · simp only [via] at unlent length
      simp only [perform, listPerform, listIndex, presents.indexSet_eq _ _ related, unlent, length,
        missing, unchanged missing]
      exact ⟨rfl, related⟩
    · simp only [via] at lent
      simp only [perform, listPerform, listIndex, presents.indexSet_eq _ _ related, lent, found]
      exact ⟨rfl, after value⟩
  | toList route =>
    cases route with
    | own => exact ⟨congrArg _ (presents.toList_eq _ _ related), related⟩
    | common => exact ⟨congrArg _ (presents.shows related).toList_eq, related⟩
  | intoList route => exact ⟨congrArg _ (presents.intoList_eq route _ _ related), related⟩
  | length route => exact ⟨congrArg _ (presents.length_eq route _ _ related), related⟩
  | walk moves =>
    refine ⟨?_, related⟩
    obtain ⟨answers, last⟩ := Copies.run_related (R := Shows i.common)
      (fun move _ _ shows => shows.take move) moves (.cons (presents.shows related) .nil)
    simp only [perform, listPerform]
    rw [answers, Copies.map_eq_of_forall₂ last fun _ _ shows => shows.toList_eq, List.map_id']

end Interface.Presents

/-- A container presents the list of its elements. -/
theorem Container.presents {α : Type} {n : Nat} :
    (interface (α := α) (n := n)).Presents fun array elements => array.toList = elements where
  length_eq route array elements related := by
    cases route <;> exact (related ▸ array.length_toList).symm
  get_eq route array elements related index := by
    cases route <;> exact related ▸ (array.getElem?_toList index).symm
  lend_cases route array elements related index := by
    subst related
    have lent : (interface.via route).lend array index = array.lend index := by cases route <;> rfl
    by_cases inside : index < n
    · refine .inr ⟨array.slots[index], fun value => ⟨array.slots.set index value⟩, ?_, ?_, ?_⟩
      · exact (array.getElem?_toList index).trans (Vector.getElem?_eq_getElem inside)
      · rw [lent, lend, dif_pos inside]
      · exact fun value => @Vector.toList_set α n array.slots index value inside
    · refine .inl ⟨?_, by rw [lent, lend, dif_neg inside]⟩
      rw [List.getElem?_eq_none_iff, array.length_toList]
      exact Nat.le_of_not_lt inside
  intoList_eq route array elements related := by
    cases route <;> exact related
  toList_eq array elements related := related
  set_eq array elements related index value := by
    by_cases inside : index < n <;> simp [interface, set, Access.set, access, lend, inside]
  index_eq array elements related index := rfl
  indexSet_eq array elements related index value := by
    cases lent : array.lend index <;> simp [interface, indexSet, access, lent]

/-! ## The type that a text declares -/

namespace Blueprint
variable {α : Type}

/-- Stores a value in a field. -/
def store (fields : List (String × α)) (field : String) (value : α) : List (String × α) :=
  fields.map fun (name, old) => (name, if name = field then value else old)

/-- A field of a table that stands for an index, with its value. -/
def slotAt? (table : List (Nat × String)) (fields : List (String × α)) (index : Nat) :
    Option (String × α) :=
  (table.lookup index).bind fun field => (fields.lookup field).map (field, ·)

/-- One value in all fields. -/
def fill (b : Blueprint) (value : α) : List (String × α) := b.fields.map (·, value)

/-- The fields from the calls that the text writes for them, one call after another. -/
def fromFnM (b : Blueprint) {m : Type → Type} [Monad m] (f : Nat → m α) : m (List (String × α)) :=
  b.calls.mapM fun (field, argument) => (field, ·) <$> f argument

/-- The functions of the type; `length` is the one they go by. -/
def access (b : Blueprint) (length : Nat) : Access (List (String × α)) α where
  length := length
  get fields index := (slotAt? b.shared fields index).map (·.2)
  lend fields index := (slotAt? b.lent fields index).map fun (field, old) => (old, store fields field)
  intoList fields := b.moved.filterMap (List.lookup · fields)

/-- What the type does. A value is given by those of its fields. -/
def interface (b : Blueprint) : Interface (List (String × α)) α where
  own := b.access b.ownLength
  common := b.access b.commonLength
  set fields index value :=
    match slotAt? b.replaced fields index with
    | some (field, old) => .ok (old, store fields field value)
    | none => .error ⟨index, b.reported⟩
  toList fields := b.cloned.filterMap (List.lookup · fields)
  index fields index :=
    match slotAt? b.shared fields index with
    | some (_, value) => .ok value
    | none => .error ⟨index, b.indexLength⟩
  indexSet fields index value :=
    match slotAt? b.lent fields index with
    | some (field, _) => .ok (store fields field value)
    | none => .error ⟨index, b.indexMutLength⟩

/-- The elements of a list in the fields of the slots. -/
def record (elements : List α) : List (String × α) :=
  elements.mapIdx fun i value => (slotField i, value)

section Record
variable {field : Nat → String} (distinct : Function.Injective field) (elements : List α)
include distinct

/-- Fields with different names hold each its own value. -/
theorem lookup_mapIdx (index : Nat) :
    (elements.mapIdx fun i value => (field i, value)).lookup (field index) = elements[index]? := by
  induction elements generalizing field index with
  | nil => rfl
  | cons first rest ih =>
    rw [List.mapIdx_cons, List.lookup_cons]
    cases index with
    | zero => simp
    | succ index =>
      have other : (field (index + 1) == field 0) = false := by
        simp [distinct.eq_iff]
      rw [other]
      exact ih (distinct.comp fun _ _ => Nat.succ.inj) index

/-- Storing in one of them leaves the others. -/
theorem store_mapIdx (index : Nat) (value : α) :
    store (elements.mapIdx fun i value => (field i, value)) (field index) value =
      (elements.set index value).mapIdx fun i value => (field i, value) := by
  refine List.ext_getElem? fun i => ?_
  rw [store, List.getElem?_map, List.getElem?_mapIdx, List.getElem?_mapIdx, Option.map_map]
  by_cases same : i = index
  · subst same
    by_cases inside : i < elements.length <;> simp [inside]
  · have other : field i ≠ field index := distinct.ne same
    rw [List.getElem?_set_ne (Ne.symm same)]
    simp [Function.comp_def, other]

end Record

theorem lookup_record (elements : List α) (index : Nat) :
    (record elements).lookup (slotField index) = elements[index]? :=
  lookup_mapIdx slotField_injective elements index

theorem store_record (elements : List α) (index : Nat) (value : α) :
    store (record elements) (slotField index) value = record (elements.set index value) :=
  store_mapIdx slotField_injective elements index value

/-- The table of a text leads from each index to the field of its slot, and to nothing from others. -/
theorem lookup_slotArms (size index : Nat) :
    (slotArms size).lookup index = if index < size then some (slotField index) else none := by
  induction size with
  | zero => rfl
  | succ size ih =>
    have earlier : ((List.range size).map fun i => (i, slotField i)).lookup index = _ := ih
    rw [slotArms, List.range_succ, List.map_append, List.lookup_append, earlier, List.map_singleton,
      List.lookup_cons, List.lookup_nil]
    by_cases below : index < size
    · simp [below, Nat.lt_succ_of_lt below]
    · by_cases last : index = size
      · simp [last]
      · have beyond : ¬ index < size + 1 := by omega
        have other : (index == size) = false := by simp [last]
        simp [below, beyond, other]

/-- So it finds the elements of a list with as many as there are slots. -/
theorem slotAt?_record {elements : List α} {size : Nat} (full : elements.length = size) (index : Nat) :
    slotAt? (slotArms size) (record elements) index =
      elements[index]?.map fun value => (slotField index, value) := by
  rw [slotAt?, lookup_slotArms]
  split
  · rw [Option.bind_some, lookup_record]
  · rename_i outside
    rw [List.getElem?_eq_none (by omega)]
    rfl

theorem filterMap_slotFields {elements : List α} {size : Nat} (full : elements.length = size) :
    (slotFields size).filterMap (List.lookup · (record elements)) = elements := by
  have found : (List.range elements.length).map ((List.lookup · (record elements)) ∘ slotField) =
      elements.map some := by
    refine List.ext_getElem (by simp) fun i _ inside => ?_
    rw [List.getElem_map, List.getElem_range, Function.comp_apply, lookup_record, List.getElem_map]
    exact List.getElem?_eq_getElem _
  rw [slotFields, ← full, List.filterMap_map]
  calc (List.range elements.length).filterMap ((List.lookup · (record elements)) ∘ slotField)
    _ = ((List.range elements.length).map ((List.lookup · (record elements)) ∘ slotField)).filterMap
        id := by rw [List.filterMap_map, Function.id_comp]
    _ = elements := by rw [found, List.filterMap_map, Function.id_comp, List.filterMap_some]

/-- The type that the text of a container declares presents the list that is in its fields. -/
theorem presents (size : Nat) : ((ofSize size).interface (α := α)).Presents fun fields elements =>
    fields = record elements ∧ elements.length = size := by
  have common (route : Route) : ((ofSize size).interface (α := α)).via route = (ofSize size).access size := by
    cases route <;> rfl
  constructor
  case length_eq =>
    rintro route _ elements ⟨rfl, full⟩
    rw [common]
    exact full.symm
  case get_eq =>
    rintro route _ elements ⟨rfl, full⟩ index
    rw [common]
    simp [access, ofSize, slotAt?_record full, Option.map_map, Function.comp_def]
  case lend_cases =>
    rintro route _ elements ⟨rfl, full⟩ index
    rw [common]
    cases found : elements[index]? with
    | none => exact .inl ⟨rfl, by simp [access, ofSize, slotAt?_record full, found]⟩
    | some old =>
      refine .inr ⟨old, store (record elements) (slotField index), rfl, ?_, fun value => ?_⟩
      · simp [access, ofSize, slotAt?_record full, found]
      · exact ⟨store_record elements index value, by rw [List.length_set, full]⟩
  case intoList_eq =>
    rintro route _ elements ⟨rfl, full⟩
    rw [common]
    exact filterMap_slotFields full
  case toList_eq =>
    rintro _ elements ⟨rfl, full⟩
    exact filterMap_slotFields full
  case set_eq =>
    rintro _ elements ⟨rfl, full⟩ index value
    cases found : elements[index]? <;>
      simp [interface, Access.set, access, ofSize, slotAt?_record full, found]
  case index_eq =>
    rintro _ elements ⟨rfl, full⟩ index
    cases found : elements[index]? <;>
      simp [interface, access, ofSize, slotAt?_record full, found]
  case indexSet_eq =>
    rintro _ elements ⟨rfl, full⟩ index value
    cases found : elements[index]? <;>
      simp [interface, access, ofSize, slotAt?_record full, found]

end Blueprint

/-! ## From the beginning -/

/-- How a container comes about: with one element everywhere, or with one from each call of a function,
which may do something else besides. -/
inductive Start (m : Type → Type) (α : Type) where
  | default (value : α)
  | fromFn (f : Nat → m α)

namespace Start
variable {m : Type → Type} [Monad m] {α : Type}

/-- A list of a length: the function is called for each index once, in order. -/
def onList (length : Nat) : Start m α → m (List α)
  | .default value => pure (List.replicate length value)
  | .fromFn f => (List.range length).mapM f

/-- A container of a size. -/
def onContainer (size : Nat) : Start m α → m (Container α size)
  | .default value => pure (.fill value)
  | .fromFn f => Container.fromFnM f

/-- The fields of a type that a text declares. -/
def onFields (b : Blueprint) : Start m α → m (List (String × α))
  | .default value => pure (b.fill value)
  | .fromFn f => b.fromFnM f

variable [LawfulMonad m]

private theorem ofFnM_eq_mapM (f : Nat → m α) (n : Nat) :
    List.ofFnM (fun i : Fin n => f i) = (List.range n).mapM f := by
  induction n with
  | zero => simp
  | succ n ih =>
    have earlier : List.ofFnM (fun i : Fin n => f i.castSucc) = _ := ih
    rw [List.ofFnM_succ_last, List.range_succ, List.mapM_append, earlier]
    simp

/-- A container comes about as the list of its elements does. -/
theorem toList_onContainer (size : Nat) (start : Start m α) :
    Container.toList <$> start.onContainer size = start.onList size := by
  cases start with
  | default value =>
    rw [onContainer, map_pure, Container.toList, Container.fill, Vector.toList_replicate, onList]
  | fromFn f =>
    have slots : Container.toList <$> (Container.fromFnM f : m (Container α size)) =
        Vector.toList <$> Vector.ofFnM fun i : Fin size => f i := by
      simp [Container.fromFnM, Container.toList]
    rw [onContainer, slots, Vector.toList_ofFnM, ofFnM_eq_mapM, onList]

/-- Calls whose results go to fields are the calls, with their results put there. -/
private theorem mapM_fields (field : Nat → String) (f : Nat → m α) (count first : Nat) :
    (List.range' first count).mapM (fun i => (field i, ·) <$> f i) =
      (fun values => values.mapIdx fun i value => (field (first + i), value)) <$>
        (List.range' first count).mapM f := by
  induction count generalizing first with
  | zero => simp
  | succ count ih =>
    rw [List.range'_succ, List.mapM_cons, List.mapM_cons, ih]
    simp [Nat.add_assoc, Nat.add_comm 1]

/-- So do the fields of a type. -/
theorem onFields_eq (size : Nat) (start : Start m α) :
    start.onFields (.ofSize size) = Blueprint.record <$> start.onList size := by
  cases start with
  | default value =>
    rw [onFields, onList, map_pure]
    refine congrArg _ (List.ext_getElem ?_ fun i _ _ => ?_)
    · simp [Blueprint.fill, Blueprint.ofSize, Blueprint.record, slotFields]
    · simp [Blueprint.fill, Blueprint.ofSize, Blueprint.record, slotFields]
  | fromFn f =>
    have fields := mapM_fields slotField f size 0
    rw [← List.range_eq_range'] at fields
    rw [onFields, onList, Blueprint.fromFnM, Blueprint.ofSize, List.mapM_map]
    simp only [Nat.zero_add] at fields
    exact fields

end Start

/-- Does things with a container that has come about and its copies. -/
def session {m : Type → Type} [Monad m] {σ β ω : Type} (start : m σ) (use : ω → σ → β × σ)
    (steps : List (CopyStep ω)) : m (List (Option β) × List σ) :=
  (fun first => Copies.run use [first] steps) <$> start

section Runs
variable {α : Type} {size : Nat} (steps : List (CopyStep (SlotUse α)))

/-- Runs on a container are those on its list. -/
theorem run_container (array : Container α size) :
    Copies.run listPerform [array.toList] steps =
      ((Copies.run Container.interface.perform [array] steps).1,
        (Copies.run Container.interface.perform [array] steps).2.map Container.toList) := by
  have one : List.Forall₂ (fun array elements => Container.toList array = elements)
      [array] [array.toList] := .cons rfl .nil
  obtain ⟨answers, copies⟩ := Copies.run_related Container.presents.perform_related steps one
  refine Prod.ext answers.symm ?_
  rw [Copies.map_eq_of_forall₂ copies fun _ _ same => same, List.map_id']

/-- Runs on the fields of a type are those on the list that is in them. -/
theorem run_fields {elements : List α} (full : elements.length = size) :
    Copies.run (Blueprint.ofSize size).interface.perform [Blueprint.record elements] steps =
      ((Copies.run listPerform [elements] steps).1,
        (Copies.run listPerform [elements] steps).2.map Blueprint.record) := by
  have one : List.Forall₂ (fun fields elements => fields = Blueprint.record elements ∧
      elements.length = size) [Blueprint.record elements] [elements] := .cons ⟨rfl, full⟩ .nil
  obtain ⟨answers, copies⟩ :=
    Copies.run_related (Blueprint.presents size).perform_related steps one
  refine Prod.ext answers ?_
  rw [← Copies.map_eq_of_forall₂ copies fun _ _ same => same.1, List.map_id']

end Runs

/-- Whatever is done with a container from its beginning, with the one way to an operation or the
other, with the container itself or a copy: it answers as the list of its elements does, and holds
afterwards what that holds. The text of every container can be read, and the type it declares, with a
field for each slot, does the same. -/
theorem containers_are_lists (d : Declaration) :
    ∃ blueprint, Blueprint.read? d = some blueprint ∧
      ∀ {m : Type → Type} [Monad m] [LawfulMonad m] {α : Type} (start : Start m α)
        (steps : List (CopyStep (SlotUse α))),
        let onList := session (start.onList d.size) listPerform steps
        (fun (answers, copies) => (answers, copies.map Container.toList)) <$>
            session (start.onContainer d.size) Container.interface.perform steps = onList ∧
          session (start.onFields blueprint) blueprint.interface.perform steps =
            (fun (answers, copies) => (answers, copies.map Blueprint.record)) <$> onList := by
  refine ⟨_, Blueprint.read?_eq_some d, fun start steps => ?_⟩
  intro onList
  constructor
  · simp only [onList, session, ← start.toList_onContainer, Functor.map_map]
    exact map_congr fun array => (run_container steps array).symm
  · simp only [onList, session, start.onFields_eq, ← start.toList_onContainer, Functor.map_map]
    exact map_congr fun array => run_fields steps array.length_toList

/-- Of three tens by their indices, the second is replaced; a copy and the container itself then differ
in the slot that is stored into, and an index outside panics. -/
theorem containers_are_lists_three :
    let start : Start (StateM (List Nat)) Nat := .fromFn fun i => do
      modify (· ++ [i])
      return 10 * i
    let steps : List (CopyStep (SlotUse Nat)) :=
      [.use 0 (.set .common 1 7), .copy 0, .use 1 (.indexSet 0 5), .use 0 (.set .own 3 8),
        .use 0 (.index 3), .use 0 (.toList .common), .use 1 (.toList .own)]
    ∃ blueprint, Blueprint.read? ⟨"Rgb", 3, "pub", "C", ["#[repr(C)]"], []⟩ = some blueprint ∧
      (session (start.onFields blueprint) blueprint.interface.perform steps).run [] =
        (([some (.replaced (.ok 10)), none, some (.stored (.ok ())), some (.replaced (.error ⟨3, 3⟩)),
            some (.indexed (.error "index out of range: the length is 3 but the index is 3")),
            some (.elements [0, 7, 20]), some (.elements [5, 7, 20])],
          [[("_value0", 0), ("_value1", 7), ("_value2", 20)],
            [("_value0", 5), ("_value1", 7), ("_value2", 20)]]), [0, 1, 2]) := by
  intro start steps
  obtain ⟨blueprint, read, alike⟩ :=
    containers_are_lists ⟨"Rgb", 3, "pub", "C", ["#[repr(C)]"], []⟩
  refine ⟨blueprint, read, ?_⟩
  obtain ⟨-, fields⟩ := alike start steps
  rw [fields]
  rfl

end SlotArray
