import SlotArray.Proofs.Rearrangements
import SlotArray.Proofs.Schedules

/-! What comes of a feed. A pass that answers with a text and one that hands it to a sink go different
ways, but both start with discovery: they fail where it fails, have nothing to write where it asks for
nothing, and come to the same document everywhere else. -/
namespace SlotArray

variable {feed : List Occurrence} {requests : List Request} {error : PassError} {text : String}
  {σ : Type}

/-- A document is never empty: it begins with the comment that says what made it. -/
theorem Document.render_ne_empty (document : Document) : document.render ≠ "" := by
  intro empty
  have chars := congrArg String.toList empty
  rw [render, String.toList_append, String.toList_empty] at chars
  exact absurd (List.append_eq_nil_iff.mp chars).1 (by decide)

/-- A feed asks for nothing when each of its occurrences is passed over. -/
theorem discover_eq_nil_iff {shape : Shape} :
    discover shape feed = .ok [] ↔ ∀ occurrence ∈ feed, IsPassedOver shape occurrence := by
  rw [discover_eq_ok_iff]
  constructor
  · rintro ⟨readable, _, nothing⟩ occurrence mem
    obtain ⟨answer, read⟩ := readable occurrence mem
    cases answer with
    | none => exact request?_eq_none_iff.mp read
    | some request =>
      have known : request ∈ asked shape feed :=
        List.mem_filterMap.mpr ⟨occurrence, mem, asked?_eq_some_iff.mpr read⟩
      rw [← nothing] at known
      cases known
  · intro passed
    have nothing : asked shape feed = [] := by
      apply List.filterMap_eq_nil_iff.mpr
      intro occurrence mem
      rw [Occurrence.asked?, request?_eq_none_iff.mpr (passed occurrence mem)]
      rfl
    refine ⟨?_, ?_, nothing.symm⟩
    · intro occurrence mem
      exact ⟨none, request?_eq_none_iff.mpr (passed occurrence mem)⟩
    · rw [nothing]
      exact List.nodup_nil

/-- Discovery fails when something is wrong at any position. -/
theorem exists_discover_error_iff {shape : Shape} :
    (∃ error, discover shape feed = .error error) ↔ ∃ i error, TroubleAt shape feed i error := by
  constructor
  · rintro ⟨error, failed⟩
    obtain ⟨i, trouble, _⟩ := discover_eq_error_iff_first.mp failed
    exact ⟨i, error, trouble⟩
  · rintro ⟨i, error, trouble⟩
    cases found : discover shape feed with
    | error other => exact ⟨other, rfl⟩
    | ok requests =>
      obtain ⟨_, _, rfl⟩ := discover_eq_ok_iff.mp found
      exact absurd trouble (untroubled_iff.mpr found i error)

namespace Generator

/-! ## The text of a feed -/

theorem generate_eq_error_iff (generator : Generator) :
    generator.generate feed = .error error ↔ discover .named feed = .error error := by
  constructor
  · intro failed
    cases found : discover .named feed with
    | ok requests =>
      rw [generate_of_discover generator found] at failed
      cases failed
    | error other =>
      rw [generate_of_error generator found] at failed
      cases failed
      rfl
  · exact generate_of_error generator

theorem generate_eq_ok_iff (generator : Generator) {text? : Option String} :
    generator.generate feed = .ok text? ↔ ∃ requests, discover .named feed = .ok requests ∧
      text? = if requests = [] then none
        else some (Document.ofRequests generator.extraDerives requests).render := by
  constructor
  · intro made
    cases found : discover .named feed with
    | ok requests =>
      rw [generate_of_discover generator found] at made
      cases made
      exact ⟨requests, rfl, rfl⟩
    | error other =>
      rw [generate_of_error generator found] at made
      cases made
  · rintro ⟨requests, found, rfl⟩
    exact generate_of_discover generator found

/-- There is nothing to write when a feed is accepted and asks for nothing. -/
theorem generate_eq_none_iff (generator : Generator) :
    generator.generate feed = .ok none ↔ discover .named feed = .ok [] := by
  rw [generate_eq_ok_iff]
  constructor
  · rintro ⟨requests, found, nothing⟩
    by_cases empty : requests = []
    · rw [found, empty]
    · rw [if_neg empty] at nothing
      cases nothing
  · intro found
    exact ⟨[], found, rfl⟩

/-- There is a text when a feed is accepted and asks for something. -/
theorem generate_eq_some_iff (generator : Generator) :
    generator.generate feed = .ok (some text) ↔
      ∃ requests, discover .named feed = .ok requests ∧ requests ≠ [] ∧
        text = (Document.ofRequests generator.extraDerives requests).render := by
  rw [generate_eq_ok_iff]
  constructor
  · rintro ⟨requests, found, made⟩
    by_cases empty : requests = []
    · rw [if_pos empty] at made
      cases made
    · rw [if_neg empty] at made
      cases made
      exact ⟨requests, found, empty, rfl⟩
  · rintro ⟨requests, found, some, rfl⟩
    exact ⟨requests, found, (if_neg some).symm⟩

/-- A feed that has a text has occurrences that are not passed over. -/
theorem exists_enabled_of_generate {generator : Generator}
    (made : generator.generate feed = .ok (some text)) :
    ∃ occurrence ∈ feed, ¬ IsPassedOver .named occurrence := by
  by_contra passed
  push Not at passed
  have nothing := (generate_eq_none_iff generator).mpr (discover_eq_nil_iff.mpr passed)
  rw [made] at nothing
  cases nothing

/-- A pool of one thread leaves no choice: however its moves fall, it ends with the text. -/
theorem generate_of_single_thread (generator : Generator)
    (found : discover .named feed = .ok requests) (some : requests ≠ []) {turns : List Turn}
    {pool : Pool} (played : (Pool.start 1 requests).play generator.extraDerives turns = .some pool)
    (done : pool.isDone = true) : generator.generate feed = .ok (.some pool.document.render) := by
  obtain ⟨filed, accounts⟩ := Pool.accounts_of_play played
  have inOrder : filed = requests := (accounts.of_isDone done).2 rfl
  rw [generate_of_discover generator found, if_neg some, accounts.document, inOrder]

/-! ## The sink of a feed -/

theorem run_of_error (generator : Generator) (failed : discover .named feed = .error error)
    (sink : Sink σ) (state : σ) : generator.run sink feed state = (.error error, state) := by
  rw [run, document, failed]
  rfl

theorem run_of_nothing (generator : Generator) (found : discover .named feed = .ok [])
    (sink : Sink σ) (state : σ) : generator.run sink feed state = (.ok 0, state) := by
  rw [run, document, found]
  rfl

/-- The sink is given the text of the feed, and decides how the pass ends. -/
theorem run_of_discover (generator : Generator) (found : discover .named feed = .ok requests)
    (some : requests ≠ []) (sink : Sink σ) (state : σ) :
    generator.run sink feed state =
      match sink generator.fileName (Document.ofRequests generator.extraDerives requests).render
        state with
      | (.ok (), state) => (.ok requests.length, state)
      | (.error error, state) => (.error error, state) := by
  have filled : generator.document feed =
      .ok (.some (.ofRequests generator.extraDerives requests)) := by
    rw [document, found]
    cases requests with
    | nil => exact absurd rfl some
    | cons first rest => rfl
  rw [run, filled]
  dsimp only
  rcases sink generator.fileName _ state with ⟨error | _, after⟩
  · rfl
  · exact congrArg (fun count => (Except.ok count, after)) (Document.size_ofRequests _ _)

end Generator
end SlotArray
