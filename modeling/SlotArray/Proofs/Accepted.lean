import Mathlib.Data.List.Nodup
import SlotArray.Discovery
import SlotArray.Proofs.Segments

/-! What discovery accepts. Whatever the feed is, a request that comes out of it was asked for by
a declaration, passed the checks of its shape, and shares name and module with no other. -/
namespace SlotArray
variable {shape : Shape} {feed : List Occurrence} {requests accepted : List Request}

/-- The name and the module of a request, as they were read. -/
def Request.key (request : Request) : ModulePath × String := (request.home, request.name)

theorem Request.collides_iff (left right : Request) :
    left.collides right = true ↔ left.key = right.key := by
  simp [Request.collides, Request.key]

/-- The requests found in a feed. -/
structure Discovered (shape : Shape) (feed : List Occurrence) (requests : List Request) : Prop where
  asked : ∀ request ∈ requests, ∃ occurrence ∈ feed, occurrence.request? shape = .ok (some request)
  distinct : (requests.map Request.key).Nodup

/-- The walk over a feed keeps what it has found, behind the requests `accepted` before it. -/
theorem discovered_of_go (fresh : (accepted.map Request.key).Nodup)
    (walked : discover.go shape accepted feed = .ok requests) :
    ∃ later, requests = accepted.reverse ++ later ∧
      (∀ request ∈ later, ∃ occurrence ∈ feed, occurrence.request? shape = .ok (some request)) ∧
      (requests.map Request.key).Nodup := by
  fun_induction discover.go shape accepted feed with
  | case1 accepted =>
    cases walked
    refine ⟨[], (List.append_nil _).symm, fun _ mem => (nomatch mem), ?_⟩
    rw [List.map_reverse]
    exact List.nodup_reverse.mpr fresh
  | case2 => cases walked
  | case3 accepted occurrence rest nothing ih =>
    obtain ⟨later, same, asked, distinct⟩ := ih fresh walked
    refine ⟨later, same, fun request mem => ?_, distinct⟩
    obtain ⟨other, known, asks⟩ := asked request mem
    exact ⟨other, List.mem_cons_of_mem _ known, asks⟩
  | case4 => cases walked
  | case5 accepted occurrence rest request asks unused ih =>
    have freshAll : ((request :: accepted).map Request.key).Nodup := by
      refine List.nodup_cons.mpr ⟨fun mem => ?_, fresh⟩
      obtain ⟨other, known, same⟩ := List.mem_map.mp mem
      exact unused (List.any_eq_true.mpr ⟨other, known, (Request.collides_iff _ _).mpr same.symm⟩)
    obtain ⟨later, same, asked, distinct⟩ := ih freshAll walked
    refine ⟨request :: later, by rw [same]; simp, fun found mem => ?_, distinct⟩
    rcases List.mem_cons.mp mem with rfl | mem
    · exact ⟨occurrence, List.mem_cons_self, asks⟩
    · obtain ⟨other, known, asks⟩ := asked found mem
      exact ⟨other, List.mem_cons_of_mem _ known, asks⟩

/-- What discovery answers was discovered. -/
theorem discovered_of_discover (found : discover shape feed = .ok requests) :
    Discovered shape feed requests := by
  have fresh : (([] : List Request).map Request.key).Nodup := List.nodup_nil
  obtain ⟨later, rfl, asked, distinct⟩ := discovered_of_go fresh found
  exact ⟨asked, distinct⟩

/-- A request that passed the checks of a named container. -/
structure IsNamed (request : Request) : Prop where
  identifier : Source.isIdentifier request.name = true
  notElement : request.name ≠ defaultElement
  segments : ∀ segment ∈ request.home.segments, IsSegment segment

/-- A computation that succeeds does so step by step. -/
theorem bind_eq_ok_iff {ε α β : Type} {first : Except ε α} {next : α → Except ε β} {value : β} :
    first >>= next = .ok value ↔ ∃ middle, first = .ok middle ∧ next middle = .ok value := by
  cases first with
  | error fault => simp [bind, Except.bind]
  | ok middle => simp [bind, Except.bind]

theorem mapError_eq_ok_iff {ε ε' α : Type} {result : Except ε α} {wrap : ε → ε'} {value : α} :
    result.mapError wrap = .ok value ↔ result = .ok value := by
  cases result <;> simp [Except.mapError]

theorem mapError_eq_error_iff {ε ε' α : Type} {result : Except ε α} {wrap : ε → ε'} {error : ε'} :
    result.mapError wrap = .error error ↔ ∃ inner, result = .error inner ∧ wrap inner = error := by
  cases result <;> simp [Except.mapError]

/-- A name is read if it is an identifier once nothing is around it. -/
theorem readName_eq_ok_iff {text name : String} :
    readName text = .ok name ↔ name = Text.trimmed text ∧ Source.isIdentifier name = true := by
  rw [readName]
  by_cases identifier : Source.isIdentifier (Text.trimmed text) = true
  · simp only [identifier, ↓reduceIte, Except.ok.injEq]
    constructor
    · rintro rfl
      exact ⟨rfl, identifier⟩
    · exact fun same => same.1.symm
  · simp only [identifier, Bool.false_eq_true, ↓reduceIte, reduceCtorEq, false_iff, not_and]
    rintro rfl
    exact identifier

/-- A number of slots is a size that is read as it is. -/
theorem readSize_val (index : Nat) (size : SlotCount) :
    (Argument.integer size.val).readSize index = .ok size.val := by
  have small := size.le
  have fits : 0 ≤ (size.val : Int) ∧ (size.val : Int) ≤ 255 := by omega
  rw [Argument.readSize, if_pos fits, Int.toNat_natCast]

private theorem isNamed_of_namedRequest {name home : Argument} {size : SlotCount} {request : Request}
    (read : namedRequest name home size = .ok request) : IsNamed request := by
  obtain ⟨nameText, _, read⟩ := bind_eq_ok_iff.mp read
  obtain ⟨homeText, _, read⟩ := bind_eq_ok_iff.mp read
  obtain ⟨name, readName, read⟩ := bind_eq_ok_iff.mp read
  have identifier := (readName_eq_ok_iff.mp readName).2
  by_cases element : name = defaultElement
  · rw [if_pos element] at read
    cases read
  · rw [if_neg element] at read
    obtain ⟨home, readHome, read⟩ := bind_eq_ok_iff.mp read
    cases read
    refine ⟨identifier, element, ?_⟩
    unfold SlotArray.readHome at readHome
    split at readHome
    · rename_i parsed
      cases readHome
      exact ModulePath.isSegment_of_parse? parsed
    · cases readHome

theorem isNamed_of_request? {occurrence : Occurrence} {request : Request}
    (asks : occurrence.request? .named = .ok (some request)) : IsNamed request := by
  unfold Occurrence.request? at asks
  split at asks
  · cases asks
  · rename_i tag _
    have read := mapError_eq_ok_iff.mp asks
    unfold Tag.request? at read
    split at read
    · obtain ⟨number, _, read⟩ := bind_eq_ok_iff.mp read
      split at read
      · rename_i size _
        rw [map_eq_pure_bind] at read
        obtain ⟨found, made, same⟩ := bind_eq_ok_iff.mp read
        cases same
        exact isNamed_of_namedRequest made
      · cases read
    · rename_i otherShape _
      cases otherShape
    · cases read

theorem isNamed_of_discover (found : discover .named feed = .ok requests) :
    ∀ request ∈ requests, IsNamed request := by
  intro request mem
  obtain ⟨occurrence, _, asks⟩ := (discovered_of_discover found).asked request mem
  exact isNamed_of_request? asks

end SlotArray
