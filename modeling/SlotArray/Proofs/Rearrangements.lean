import SlotArray.Generator
import SlotArray.Proofs.Feeds
import SlotArray.Proofs.Sections

/-! Feeds in another order. What is accepted does not depend on the order of a feed, though the error of
one that is not accepted does, and a document shows no more of the order than how the requests for each
module follow one another. Occurrences that are passed over may stand anywhere. -/
namespace SlotArray

variable {shape : Shape} {feed other padded : List Occurrence} {requests accepted : List Request}

/-! ## Occurrences that are passed over -/

/-- A feed with occurrences put in at any positions, all of which are passed over. -/
inductive IsPaddingOf (shape : Shape) : List Occurrence → List Occurrence → Prop where
  | nil : IsPaddingOf shape [] []
  | keep {padded feed : List Occurrence} (occurrence : Occurrence)
      (rest : IsPaddingOf shape padded feed) :
      IsPaddingOf shape (occurrence :: padded) (occurrence :: feed)
  | put {padded feed : List Occurrence} {occurrence : Occurrence}
      (passed : IsPassedOver shape occurrence) (rest : IsPaddingOf shape padded feed) :
      IsPaddingOf shape (occurrence :: padded) feed

/-- The walk over a padded feed finds what the walk over the feed finds. -/
private theorem go_of_padding (padding : IsPaddingOf shape padded feed) :
    discover.go shape accepted padded = discover.go shape accepted feed := by
  induction padding generalizing accepted with
  | nil => rfl
  | @keep padded feed occurrence rest ih =>
    rw [discover.go, discover.go]
    cases occurrence.request? shape with
    | error fault => rfl
    | ok answer =>
      cases answer with
      | none => exact ih
      | some request => simp only [ih]
  | put passed rest ih =>
    rw [discover.go, request?_eq_none_iff.mpr passed]
    exact ih

theorem discover_of_padding (padding : IsPaddingOf shape padded feed) :
    discover shape padded = discover shape feed :=
  go_of_padding padding

/-! ## Other orders -/

/-- What is accepted in one order is accepted in every order, with the same requests in another
order. -/
theorem discover_of_perm (rearranged : feed.Perm other) (found : discover shape feed = .ok requests) :
    discover shape other = .ok (asked shape other) ∧ requests.Perm (asked shape other) := by
  obtain ⟨readable, distinct, rfl⟩ := discover_eq_ok_iff.mp found
  have perm : (asked shape feed).Perm (asked shape other) := rearranged.filterMap _
  refine ⟨discover_eq_ok_iff.mpr ⟨?_, ?_, rfl⟩, perm⟩
  · intro occurrence mem
    exact readable occurrence (rearranged.mem_iff.mpr mem)
  · exact (perm.map Request.key).nodup_iff.mp distinct

theorem accepted_iff_of_perm (rearranged : feed.Perm other) :
    (∃ requests, discover shape feed = .ok requests) ↔
      ∃ requests, discover shape other = .ok requests := by
  constructor
  · rintro ⟨requests, found⟩
    exact ⟨_, (discover_of_perm rearranged found).1⟩
  · rintro ⟨requests, found⟩
    exact ⟨_, (discover_of_perm rearranged.symm found).1⟩

/-- What a generator makes of an accepted feed. -/
theorem Generator.generate_of_discover (generator : Generator)
    (found : discover .named feed = .ok requests) :
    generator.generate feed = .ok (if requests = [] then none
      else some (Document.ofRequests generator.extraDerives requests).render) := by
  rw [generate, document, found]
  cases requests with
  | nil => rfl
  | cons first rest => rfl

theorem Generator.generate_of_error (generator : Generator) {error : PassError}
    (failed : discover .named feed = .error error) : generator.generate feed = .error error := by
  rw [generate, document, failed]
  rfl

/-- Feeds are accepted alike whatever their order, and ask for the same then. An accepted feed always
has a text, or nothing to write, and with one worker this is the same for both as long as the requests
for each module follow one another in the same order. Nothing changes at all when occurrences that are
passed over are put in. -/
theorem generate_of_perm (rearranged : feed.Perm other) (generator : Generator) :
    ((∃ requests, discover .named feed = .ok requests) ↔
      ∃ requests, discover .named other = .ok requests) ∧
    (∀ requests others, discover .named feed = .ok requests → discover .named other = .ok others →
      requests.Perm others) ∧
    (∀ requests, discover .named feed = .ok requests →
      ∃ text, (generator.withWorkers 1).generate feed = .ok text) ∧
    ((∀ home, (asked .named feed).filter (·.home = home) = (asked .named other).filter (·.home = home)) →
      ((generator.withWorkers 1).generate feed).toOption =
        ((generator.withWorkers 1).generate other).toOption) ∧
    ∀ padded, IsPaddingOf .named padded feed → discover .named padded = discover .named feed ∧
      (generator.withWorkers 1).generate padded = (generator.withWorkers 1).generate feed := by
  refine ⟨accepted_iff_of_perm rearranged, ?_, ?_, ?_, ?_⟩
  · intro requests others found foundOther
    obtain ⟨expected, perm⟩ := discover_of_perm rearranged found
    rw [foundOther] at expected
    cases expected
    exact perm
  · intro requests found
    exact ⟨_, Generator.generate_of_discover _ found⟩
  · intro inOrder
    cases found : discover .named feed with
    | ok requests =>
      obtain ⟨foundOther, perm⟩ := discover_of_perm rearranged found
      obtain ⟨_, _, rfl⟩ := discover_eq_ok_iff.mp found
      have nothing : asked .named feed = [] ↔ asked .named other = [] := by
        constructor
        · intro empty
          rw [empty] at perm
          exact perm.nil_eq.symm
        · intro empty
          rw [empty] at perm
          exact perm.eq_nil
      rw [Generator.generate_of_discover _ found, Generator.generate_of_discover _ foundOther,
        Document.ofRequests_congr inOrder]
      simp only [nothing]
    | error error =>
      cases foundOther : discover .named other with
      | ok requests =>
        obtain ⟨requests, accepts⟩ := (accepted_iff_of_perm rearranged).mpr ⟨requests, foundOther⟩
        rw [found] at accepts
        cases accepts
      | error otherError =>
        rw [Generator.generate_of_error _ found, Generator.generate_of_error _ foundOther]
        rfl
  · intro padded padding
    have same := discover_of_padding padding
    refine ⟨same, ?_⟩
    rw [Generator.generate, Generator.generate, Generator.document, Generator.document, same]

/-- Containers of two, each in its module. -/
private def twosIn (places : List (String × String)) : List Occurrence :=
  places.map fun (name, home) => ⟨name, [⟨"struct_array", [.string name, .string home, .integer 2]⟩]⟩

/-- A container may move in front of those for other modules, and an untagged occurrence may join. -/
theorem generate_of_perm_modules :
    ∃ feed other : List Occurrence, feed ≠ other ∧ feed.Perm other ∧
      (∃ requests, discover .named other = .ok requests) ∧
      (∃ text, Generator.initial.generate feed = .ok text) ∧
      (Generator.initial.generate feed).toOption = (Generator.initial.generate other).toOption ∧
      Generator.initial.generate (⟨"bare", []⟩ :: feed) = Generator.initial.generate feed := by
  let feed := twosIn [("A", "m"), ("B", "n"), ("C", "m")]
  let other := twosIn [("B", "n"), ("A", "m"), ("C", "m")]
  let two : SlotCount := ⟨2, by decide, by decide⟩
  have asks : asked .named feed = [⟨"A", ⟨["m"]⟩, two⟩, ⟨"B", ⟨["n"]⟩, two⟩, ⟨"C", ⟨["m"]⟩, two⟩] := by
    decide +kernel
  have asksOther : asked .named other = [⟨"B", ⟨["n"]⟩, two⟩, ⟨"A", ⟨["m"]⟩, two⟩, ⟨"C", ⟨["m"]⟩, two⟩] := by
    decide +kernel
  have found : discover .named feed = .ok (asked .named feed) := by
    rw [asks]
    decide +kernel
  have rearranged : feed.Perm other := List.Perm.swap _ _ _
  obtain ⟨accepted, _, written, texts, padding⟩ := generate_of_perm rearranged Generator.initial
  refine ⟨feed, other, by decide, rearranged, accepted.mp ⟨_, found⟩, written _ found,
    texts fun home => ?_, ?_⟩
  · rw [asks, asksOther]
    by_cases first : (⟨["m"]⟩ : ModulePath) = home
    · subst first
      decide
    · simp [List.filter_cons, first]
  · exact (padding _ (.put (.untagged rfl) (.keep _ (.keep _ (.keep _ .nil))))).2

end SlotArray
