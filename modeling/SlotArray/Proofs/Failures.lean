import Mathlib.Data.List.Nodup
import SlotArray.Expansion
import SlotArray.Proofs.Accepted

/-! Where a pass fails. Discovery stops at the first declaration that is faulty or asks for a type
again, and nothing behind it matters. In a list of entries a fault is reported at the entry that
has it, but a type that is asked for again is reported at the list as a whole. -/
namespace SlotArray
open Source (TokenTree Span Expr)

variable {shape : Shape} {feed : List Occurrence} {requests accepted : List Request}
  {error : PassError}

/-- What is wrong with an occurrence behind those that asked for `requests`. -/
inductive FailsAt (shape : Shape) (requests : List Request) (occurrence : Occurrence) :
    PassError → Prop where
  | faulty {fault : SchemaError} (found : occurrence.request? shape = .error fault) :
      FailsAt shape requests occurrence (.schema fault)
  | repeated {request earlier : Request} (asks : occurrence.request? shape = .ok (some request))
      (known : earlier ∈ requests) (same : earlier.key = request.key) :
      FailsAt shape requests occurrence (.duplicateType request.qualifiedName)

/-- The walk over a feed is taken in stretches. -/
theorem discover_go_append (before after : List Occurrence) :
    discover.go shape accepted (before ++ after) =
      (discover.go shape accepted before).bind fun requests =>
        discover.go shape requests.reverse after := by
  fun_induction discover.go shape accepted before with
  | case1 accepted => simp [Except.bind]
  | case2 accepted occurrence rest fault found =>
    rw [List.cons_append, discover.go, found]
    rfl
  | case3 accepted occurrence rest found ih =>
    rw [List.cons_append, discover.go, found]
    exact ih
  | case4 accepted occurrence rest request found taken =>
    rw [List.cons_append, discover.go, found]
    exact if_pos taken
  | case5 accepted occurrence rest request found unused ih =>
    rw [List.cons_append, discover.go, found]
    exact (if_neg unused).trans ih

/-- Discovery fails exactly at an occurrence that has something wrong with it while all before it
is in order, and then whatever comes behind. -/
theorem discover_eq_error_iff :
    discover shape feed = .error error ↔
      ∃ before occurrence after requests, feed = before ++ occurrence :: after ∧
        discover shape before = .ok requests ∧ FailsAt shape requests occurrence error := by
  constructor
  · have split : ∀ accepted, discover.go shape accepted feed = .error error →
        ∃ before occurrence after requests, feed = before ++ occurrence :: after ∧
          discover.go shape accepted before = .ok requests ∧
          FailsAt shape requests occurrence error := by
      intro accepted failed
      fun_induction discover.go shape accepted feed with
      | case1 => cases failed
      | case2 accepted occurrence rest fault found =>
        cases failed
        exact ⟨[], occurrence, rest, accepted.reverse, rfl, rfl, .faulty found⟩
      | case3 accepted occurrence rest found ih =>
        obtain ⟨before, culprit, after, requests, rfl, fine, wrong⟩ := ih failed
        refine ⟨occurrence :: before, culprit, after, requests, rfl, ?_, wrong⟩
        rw [discover.go, found]
        exact fine
      | case4 accepted occurrence rest request found taken =>
        cases failed
        obtain ⟨earlier, known, collides⟩ := List.any_eq_true.mp taken
        exact ⟨[], occurrence, rest, accepted.reverse, rfl, rfl, .repeated found
          (List.mem_reverse.mpr known) ((Request.collides_iff _ _).mp collides).symm⟩
      | case5 accepted occurrence rest request found unused ih =>
        obtain ⟨before, culprit, after, requests, rfl, fine, wrong⟩ := ih failed
        refine ⟨occurrence :: before, culprit, after, requests, rfl, ?_, wrong⟩
        rw [discover.go, found]
        exact (if_neg unused).trans fine
    exact split []
  · rintro ⟨before, occurrence, after, requests, rfl, fine, wrong⟩
    have walked : discover.go shape [] before = .ok requests := fine
    rw [discover, discover_go_append, walked, Except.bind, discover.go]
    cases wrong with
    | faulty found => rw [found]
    | @repeated request earlier asks known same =>
      have taken : requests.reverse.any request.collides = true :=
        List.any_eq_true.mpr ⟨earlier, List.mem_reverse.mpr known,
          (Request.collides_iff _ _).mpr same.symm⟩
      rw [asks]
      exact if_pos taken

/-- A fault carries the declaration that it was found in. -/
theorem declaration_of_request? {occurrence : Occurrence} {fault : SchemaError}
    (found : occurrence.request? shape = .error fault) :
    fault.declaration = occurrence.declaration := by
  unfold Occurrence.request? at found
  split at found
  · cases found
  · obtain ⟨inner, _, rfl⟩ := mapError_eq_error_iff.mp found
    rfl

/-! ## Entries -/

theorem toList_entryLabel (index : Nat) :
    (entryLabel index).toList =
      "struct_arrays! entry #".toList ++ Nat.toDigits 10 (index + 1) := by
  unfold entryLabel
  rw [String.toList_append, Nat.toString_eq_repr, Nat.toList_repr]

theorem entryLabel_injective : Function.Injective entryLabel := by
  intro i j same
  have lists := congrArg String.toList same
  rw [toList_entryLabel, toList_entryLabel, List.append_cancel_left_eq] at lists
  have numbers := congrArg (Nat.ofDigitChars 10 · 0) lists
  simpa only [Nat.ofDigitChars_ten_toDigits, Nat.succ.injEq] using numbers

example : entryLabel 9 = "struct_arrays! entry #10" := by decide +kernel

/-- What messages call an entry. -/
def Entry.label (entry : Entry) : String := entry.occurrence.declaration

theorem Entry.label_of_ofExpr {index : Nat} {expr : Expr} {entry : Entry}
    (read : Entry.ofExpr index expr = .ok entry) : entry.label = entryLabel index := by
  unfold Entry.ofExpr at read
  split at read
  · cases read
    rfl
  · cases read
    rfl
  · cases read

/-- Entries are called by their places in the list. -/
theorem map_label_of_readEntries {trees : List TokenTree} {entries : List Entry}
    (read : readEntries trees = .ok entries) :
    entries.map Entry.label = (List.range' 0 entries.length).map entryLabel := by
  obtain ⟨exprs, _, read⟩ := bind_eq_ok_iff.mp read
  have labelled : ∀ (exprs : List Expr) (start : Nat) (entries : List Entry),
      ((exprs.zipIdx start).mapM fun place => Entry.ofExpr place.2 place.1) = .ok entries →
        entries.map Entry.label = (List.range' start entries.length).map entryLabel := by
    intro exprs
    induction exprs with
    | nil =>
      intro start entries read
      cases read
      rfl
    | cons expr exprs ih =>
      intro start entries read
      rw [List.zipIdx_cons, List.mapM_cons] at read
      obtain ⟨entry, readFirst, read⟩ := bind_eq_ok_iff.mp read
      obtain ⟨others, readOthers, read⟩ := bind_eq_ok_iff.mp read
      cases read
      rw [List.map_cons, List.length_cons, List.range'_succ, List.map_cons,
        Entry.label_of_ofExpr readFirst, ih (start + 1) others readOthers]
  exact labelled exprs 0 entries read

/-- No two entries are called the same, so an entry is found by what it is called. -/
theorem find?_label {trees : List TokenTree} {before after : List Entry} {entry : Entry}
    (read : readEntries trees = .ok (before ++ entry :: after)) :
    (before ++ entry :: after).find? (·.label == entry.label) = some entry := by
  have distinct : ((before ++ entry :: after).map Entry.label).Nodup := by
    rw [map_label_of_readEntries read]
    exact List.Nodup.map entryLabel_injective List.nodup_range'
  rw [List.map_append, List.map_cons, List.nodup_append] at distinct
  have others : before.find? (·.label == entry.label) = none := by
    refine List.find?_eq_none.mpr fun other mem same => ?_
    exact distinct.2.2 other.label (List.mem_map_of_mem mem) entry.label List.mem_cons_self
      (beq_iff_eq.mp same)
  rw [List.find?_append, others, Option.none_or, List.find?_cons_of_pos]
  exact beq_self_eq_true _

/-- A pass that fails is refused, at the span that its error leads to. -/
theorem expandEntries_of_error {trees : List TokenTree} {entries : List Entry}
    (read : readEntries trees = .ok entries)
    (failed : discover .named (entries.map Entry.occurrence) = .error error) :
    expandEntries trees = .error (.refused (.pass error) (errorSpan entries error)) := by
  have generated : Generator.initial.generate (entries.map Entry.occurrence) = .error error := by
    rw [Generator.generate, Generator.document, failed]
    rfl
  simp only [expandEntries, read, bind, Except.bind, generated]
  rfl

/-- Where an error that an entry makes is reported. -/
def Entry.reportSpan (entry : Entry) : PassError → Span
  | .schema _ => entry.span
  | _ => .callSite

/-- A pass over entries fails at the first of them that has something wrong with it, and is
refused. A fault of the entry is reported where the entry stands, a type that an earlier entry asked
for where the whole list stands. -/
theorem failure_reported {trees : List TokenTree} {entries : List Entry}
    (read : readEntries trees = .ok entries)
    (failed : discover .named (entries.map Entry.occurrence) = .error error) :
    ∃ before entry after requests, entries = before ++ entry :: after ∧
      discover .named (before.map Entry.occurrence) = .ok requests ∧
      FailsAt .named requests entry.occurrence error ∧
      expandEntries trees = .error (.refused (.pass error) (entry.reportSpan error)) := by
  have refused := expandEntries_of_error read failed
  obtain ⟨front, occurrence, back, requests, split, fine, wrong⟩ := discover_eq_error_iff.mp failed
  obtain ⟨before, rest, rfl, rfl, splitRest⟩ := List.map_eq_append_iff.mp split
  obtain ⟨entry, after, rfl, rfl, rfl⟩ := List.map_eq_cons_iff.mp splitRest
  refine ⟨before, entry, after, requests, rfl, fine, wrong, ?_⟩
  cases wrong with
  | @faulty fault found =>
    have known : (before ++ entry :: after).find? (fun entry =>
        entry.occurrence.declaration == fault.declaration) = some entry := by
      rw [declaration_of_request? found]
      exact find?_label read
    rw [refused, errorSpan, known]
    rfl
  | repeated => exact refused

/-- Two entries, the second one without a size. -/
theorem failure_reported_second :
    ∃ trees entries error, readEntries trees = .ok entries ∧
      discover .named (entries.map Entry.occurrence) = .error error ∧
      ∃ before entry after requests, entries = before ++ entry :: after ∧
        discover .named (before.map Entry.occurrence) = .ok requests ∧
        FailsAt .named requests entry.occurrence error ∧
        expandEntries trees = .error (.refused (.pass error) (entry.reportSpan error)) := by
  have lexed : (tokensOf "(\"A\", \"m\", 1), (\"B\", \"m\")" >>= readEntries) =
      .ok [⟨.tagged (entryLabel 0) [.string "A", .string "m", .integer 1], ⟨⟨1, 0⟩, ⟨1, 13⟩⟩⟩,
        ⟨.tagged (entryLabel 1) [.string "B", .string "m"], ⟨⟨1, 15⟩, ⟨1, 25⟩⟩⟩] := by
    decide +kernel
  obtain ⟨trees, _, read⟩ := bind_eq_ok_iff.mp lexed
  have failed : discover .named
      [.tagged (entryLabel 0) [.string "A", .string "m", .integer 1],
        .tagged (entryLabel 1) [.string "B", .string "m"]] =
      .error (.schema ⟨entryLabel 1, tagName, .argumentCount 3 2⟩) := by decide +kernel
  exact ⟨trees, _, _, read, failed, failure_reported read failed⟩

/-- The second of two entries asks for the type of the first, and this is not reported where it
stands. -/
theorem repeated_type_reported_elsewhere :
    ∃ trees first second request, readEntries trees = .ok [first, second] ∧
      discover .named [first.occurrence] = .ok [request] ∧
      FailsAt .named [request] second.occurrence (.duplicateType request.qualifiedName) ∧
      ∀ refusal, expandEntries trees ≠ .error (.refused refusal second.span) := by
  have lexed : (tokensOf "(\"A\", \"m\", 1), (\"A\", \"m\", 2)" >>= readEntries) =
      .ok [⟨.tagged (entryLabel 0) [.string "A", .string "m", .integer 1], ⟨⟨1, 0⟩, ⟨1, 13⟩⟩⟩,
        ⟨.tagged (entryLabel 1) [.string "A", .string "m", .integer 2], ⟨⟨1, 15⟩, ⟨1, 28⟩⟩⟩] := by
    decide +kernel
  obtain ⟨trees, _, read⟩ := bind_eq_ok_iff.mp lexed
  have failed : discover .named
      [.tagged (entryLabel 0) [.string "A", .string "m", .integer 1],
        .tagged (entryLabel 1) [.string "A", .string "m", .integer 2]] =
      .error (.duplicateType "m::A") := by decide +kernel
  have asks : (Occurrence.tagged (entryLabel 1) [.string "A", .string "m", .integer 2]).request?
      .named = .ok (some ⟨"A", ⟨["m"]⟩, ⟨2, by decide, by decide⟩⟩) := by decide +kernel
  have wrong := FailsAt.repeated asks
    (List.mem_singleton_self (⟨"A", ⟨["m"]⟩, ⟨1, by decide, by decide⟩⟩ : Request)) rfl
  refine ⟨trees, _, _, _, read, by decide +kernel, wrong, fun refusal same => ?_⟩
  rw [expandEntries_of_error read failed] at same
  cases same

end SlotArray
