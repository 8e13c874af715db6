import SlotArray.Pool
import SlotArray.Proofs.Segments
import SlotArray.Proofs.TreeRendering
import SlotArray.Proofs.WrittenOrder

/-! The layout of a document of requests: which modules its steps open, and which definitions they
write where. -/
namespace SlotArray
open Document (Step opened written follow)

theorem Document.ofRequests_eq_ofFilings (extraDerives : List String) (requests : List Request) :
    Document.ofRequests extraDerives requests =
      Document.ofFilings (requests.map fun request => (request.home, request.render extraDerives)) := by
  have step : Document.addRequest extraDerives =
      fun document request => document.append request.home (request.render extraDerives) := by
    funext document request
    rw [Document.addRequest]
  rw [Document.ofRequests, Document.ofFilings, List.foldl_map, step]

/-- The steps of a document that has a text for each request. -/
def requestSteps (text : Request → String) (requests : List Request) : List Step :=
  (ModuleTree.ofFilings (requests.map fun request => (request.home, text request))).steps

/-- The document of requests is its prologue and what its steps write. -/
theorem render_ofRequests (extraDerives : List String) (requests : List Request) :
    (Document.ofRequests extraDerives requests).render = Document.prologue ++
      String.ofList ((requestSteps (·.render extraDerives) requests).flatMap Step.text) := by
  rw [Document.ofRequests_eq_ofFilings, render_ofFilings, requestSteps, ModuleTree.flatMap_text_steps]

/-- The requests in the order of their modules; those for one module stay in the order they came. -/
def sortedByHome (requests : List Request) : List Request :=
  requests.mergeSort fun first second => !second.home.before first.home

section Layout
variable (text : Request → String) (requests : List Request)

theorem layout_requestSteps :
    Document.Layout (requests.map fun request => (request.home, text request))
      (requestSteps text requests) :=
  ModuleTree.layout_ofFilings _

theorem written_requestSteps : written (requestSteps text requests) =
    (sortedByHome requests).map fun request => (request.home.segments, text request) := by
  have same : ∀ first second : Request, (!second.home.before first.home) =
      inOrder Prod.fst (first.home.segments, text first) (second.home.segments, text second) := by
    intro first second
    rw [inOrder, ModulePath.before, decide_not]
  rw [requestSteps, ModuleTree.written_ofFilings, List.map_map, sortedByHome,
    List.map_mergeSort fun first _ second _ => same first second]
  rfl

variable {text requests} {path : List String}

/-- A module is opened if a request is for it or for a module inside it. -/
theorem mem_opened_requestSteps_iff :
    path ∈ opened (requestSteps text requests) ↔
      path ≠ [] ∧ ∃ request ∈ requests, path <+: request.home.segments := by
  rw [(layout_requestSteps text requests).opened_iff]
  simp

/-- What is written in a module are the texts of the requests for it. -/
theorem mem_written_requestSteps_iff {definition : String} :
    (path, definition) ∈ written (requestSteps text requests) ↔
      ∃ request ∈ requests, request.home.segments = path ∧ text request = definition := by
  have sorted {request : Request} : request ∈ sortedByHome requests ↔ request ∈ requests :=
    (List.mergeSort_perm requests _).mem_iff
  rw [written_requestSteps, List.mem_map]
  constructor
  · rintro ⟨request, mem, same⟩
    exact ⟨request, sorted.mp mem, (Prod.mk.inj same).1, (Prod.mk.inj same).2⟩
  · rintro ⟨request, mem, rfl, rfl⟩
    exact ⟨request, sorted.mpr mem, rfl⟩

end Layout

/-! ## Walks through modules -/

/-- Steps that go from one module to the module `last`, and on the way write a text for each of some
requests. Every module that they open has a proper name. -/
inductive GoesThrough (text : Request → String) (last : List String) :
    List String → List Step → List Request → Prop where
  | arrived : GoesThrough text last last [] []
  | opening {inner : List String} {steps : List Step} {requests : List Request} (proper : inner ≠ [])
      (segments : ∀ segment ∈ inner, IsSegment segment) (later : GoesThrough text last inner steps requests) :
      GoesThrough text last inner.dropLast (.opening inner :: steps) requests
  | definition (request : Request) {steps : List Step} {requests : List Request}
      (later : GoesThrough text last request.home.segments steps requests) :
      GoesThrough text last request.home.segments (.definition request.home.segments (text request) :: steps)
        (request :: requests)
  | closing {inner : List String} {steps : List Step} {requests : List Request} (proper : inner ≠ [])
      (later : GoesThrough text last inner.dropLast steps requests) :
      GoesThrough text last inner (.closing inner :: steps) requests

section GoesThrough
variable {text : Request → String} {path last : List String} {steps : List Step} {requests : List Request}

/-- Steps that can be followed go to where they end. -/
theorem goesThrough_of_follow (followed : follow path steps = some last)
    (segments : ∀ inner ∈ opened steps, ∀ segment ∈ inner, IsSegment segment)
    (definitions : written steps = requests.map fun request => (request.home.segments, text request)) :
    GoesThrough text last path steps requests := by
  induction steps generalizing path requests with
  | nil =>
    cases followed
    obtain rfl : requests = [] := List.map_eq_nil_iff.mp definitions.symm
    exact .arrived
  | cons step steps ih =>
    cases step with
    | opening inner =>
      obtain ⟨⟨proper, rfl⟩, rest⟩ := Option.ite_none_right_eq_some.mp followed
      obtain ⟨own, others⟩ := List.forall_mem_cons.mp segments
      exact .opening proper own (ih rest others definitions)
    | definition home body =>
      obtain ⟨rfl, rest⟩ := Option.ite_none_right_eq_some.mp followed
      cases requests with
      | nil => cases definitions
      | cons request requests =>
        obtain ⟨same, others⟩ := List.cons_eq_cons.mp definitions
        obtain ⟨rfl, rfl⟩ := Prod.mk.inj same
        exact .definition request (ih rest segments others)
    | closing inner =>
      obtain ⟨⟨proper, rfl⟩, rest⟩ := Option.ite_none_right_eq_some.mp followed
      exact .closing proper (ih rest segments definitions)

/-- The steps of a document go from its root back there, past the requests in the order of their modules. -/
theorem goesThrough_requestSteps
    (segments : ∀ request ∈ requests, ∀ segment ∈ request.home.segments, IsSegment segment) :
    GoesThrough text [] [] (requestSteps text requests) (sortedByHome requests) := by
  refine goesThrough_of_follow (layout_requestSteps text requests).nested ?_ (written_requestSteps text requests)
  intro inner mem segment inside
  obtain ⟨_, request, asked, below⟩ := mem_opened_requestSteps_iff.mp mem
  exact segments request asked segment (below.subset inside)

end GoesThrough

end SlotArray
