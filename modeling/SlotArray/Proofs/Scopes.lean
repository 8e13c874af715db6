import SlotArray.Proofs.DefinitionText
import SlotArray.Proofs.DistinctTypes
import SlotArray.Proofs.RequestLayout

/-! The names in one module of a document. Types and modules share a name space, but discovery compares
types with types alone, and a module is there as soon as anything is in it. -/
namespace SlotArray
open Document (Step opened written follow)
open Source (identifier?)

/-- A definition that stands in the module `path` itself is that of a type called `name`. -/
def DeclaresType (extraDerives : List String) (steps : List Step) (path : List String)
    (name : String) : Prop :=
  ∃ request : Request, (path, request.render extraDerives) ∈ written steps ∧
    identifier? request.name = some name

/-- A module that stands in the module `path` itself is called `name`. -/
def DeclaresModule (steps : List Step) (path : List String) (name : String) : Prop :=
  ∃ segment, path ++ [segment] ∈ opened steps ∧ identifier? segment = some name

section Declared
variable {extraDerives : List String} {requests : List Request} {path : List String} {name : String}

/-- The types declared in a module are those that the requests for it name. -/
theorem declaresType_iff :
    DeclaresType extraDerives (requestSteps (·.render extraDerives) requests) path name ↔
      ∃ request ∈ requests, request.home.segments = path ∧ identifier? request.name = some name := by
  constructor
  · rintro ⟨request, here, named⟩
    obtain ⟨asked, known, home, same⟩ := mem_written_requestSteps_iff.mp here
    rw [← (Request.render_inj same).1] at named
    exact ⟨asked, known, home, named⟩
  · rintro ⟨request, known, home, named⟩
    exact ⟨request, mem_written_requestSteps_iff.mpr ⟨request, known, home, rfl⟩, named⟩

/-- The modules declared in a module are those on the way to a request. -/
theorem declaresModule_iff
    (segments : ∀ request ∈ requests, ∀ segment ∈ request.home.segments, IsSegment segment) :
    DeclaresModule (requestSteps (·.render extraDerives) requests) path name ↔
      ∃ request ∈ requests, path ++ [name] <+: request.home.segments := by
  have own {segment : String} {request : Request} (known : request ∈ requests)
      (below : path ++ [segment] <+: request.home.segments) : identifier? segment = some segment := by
    have inside : segment ∈ request.home.segments := below.subset (by simp)
    exact (segments request known segment inside).identifier?_eq
  constructor
  · rintro ⟨segment, opens, named⟩
    obtain ⟨_, request, known, below⟩ := mem_opened_requestSteps_iff.mp opens
    rw [own known below] at named
    cases named
    exact ⟨request, known, below⟩
  · rintro ⟨request, known, below⟩
    have opens : path ++ [name] ∈ opened (requestSteps (·.render extraDerives) requests) :=
      mem_opened_requestSteps_iff.mpr ⟨by simp, request, known, below⟩
    exact ⟨name, opens, own known below⟩

end Declared

/-- In whatever order they are filed, the requests of a feed are for modules of proper segments. -/
theorem isSegment_of_perm {feed : List Occurrence} {requests filed : List Request}
    (found : discover .named feed = .ok requests) (order : filed.Perm requests) :
    ∀ request ∈ filed, ∀ segment ∈ request.home.segments, IsSegment segment := by
  intro request mem
  exact (isNamed_of_discover found request (order.mem_iff.mp mem)).segments

/-- In whatever order the definitions of a feed's requests are filed, a module of their document holds
a type and a module of one name exactly when one request is for that name in that module, and the
modules of another lead through it. Such a name has nothing but small letters, digits and underscores
in it. -/
theorem type_and_module_iff {feed : List Occurrence} {requests filed : List Request}
    (found : discover .named feed = .ok requests) (order : filed.Perm requests)
    (extraDerives : List String) :
    (Document.ofRequests extraDerives filed).render = Document.prologue ++
        String.ofList ((requestSteps (·.render extraDerives) filed).flatMap Step.text) ∧
      follow [] (requestSteps (·.render extraDerives) filed) = some [] ∧
      ∀ path name,
        (DeclaresType extraDerives (requestSteps (·.render extraDerives) filed) path name ∧
            DeclaresModule (requestSteps (·.render extraDerives) filed) path name ↔
          (∃ request ∈ requests, request.home.segments = path ∧
            identifier? request.name = some name) ∧
          ∃ request ∈ requests, path ++ [name] <+: request.home.segments) ∧
        (DeclaresModule (requestSteps (·.render extraDerives) filed) path name →
          ∀ c ∈ name.toList, isSegmentChar c = true) := by
  have segments := isSegment_of_perm found order
  refine ⟨render_ofRequests _ _, (layout_requestSteps _ _).nested, fun path name => ⟨?_, fun declared => ?_⟩⟩
  · rw [declaresType_iff, declaresModule_iff segments]
    simp only [order.mem_iff]
  · obtain ⟨request, known, below⟩ := (declaresModule_iff segments).mp declared
    exact (segments request known name (below.subset (by simp))).chars

/-- A container at the root, and one in the module `geometry`. -/
private def geometryFeed (name : String) : List Occurrence :=
  [⟨"a", [⟨"struct_array", [.string name, .string "", .integer 2]⟩]⟩,
    ⟨"b", [⟨"struct_array", [.string "Point", .string "Geometry", .integer 3]⟩]⟩]

/-- A capital letter keeps the two apart. -/
theorem type_and_module_apart :
    ∃ requests, discover .named (geometryFeed "Geometry") = .ok requests ∧ requests.Perm requests ∧
      ¬ DeclaresModule (requestSteps (·.render []) requests) [] "Geometry" := by
  obtain ⟨requests, listed⟩ : ∃ requests : List Request, requests =
      [⟨"Geometry", .root, ⟨2, by decide, by decide⟩⟩,
        ⟨"Point", ⟨["geometry"]⟩, ⟨3, by decide, by decide⟩⟩] := ⟨_, rfl⟩
  have found : discover .named (geometryFeed "Geometry") = .ok requests := by
    rw [listed]
    decide +kernel
  obtain ⟨_, _, declared⟩ := type_and_module_iff found (List.Perm.refl _) []
  refine ⟨requests, found, List.Perm.refl _, fun clash => ?_⟩
  exact absurd ((declared [] "Geometry").2 clash 'G' (by decide)) (by decide)

/-- With a small one both are called `geometry`, and discovery accepts them. -/
theorem type_and_module_of_one_name :
    ∃ feed requests, discover .named feed = .ok requests ∧
      DeclaresType [] (requestSteps (·.render []) requests) [] "geometry" ∧
      DeclaresModule (requestSteps (·.render []) requests) [] "geometry" := by
  obtain ⟨requests, listed⟩ : ∃ requests : List Request, requests =
      [⟨"geometry", .root, ⟨2, by decide, by decide⟩⟩,
        ⟨"Point", ⟨["geometry"]⟩, ⟨3, by decide, by decide⟩⟩] := ⟨_, rfl⟩
  have found : discover .named (geometryFeed "geometry") = .ok requests := by
    rw [listed]
    decide +kernel
  have segments := isSegment_of_perm found (List.Perm.refl _)
  have named : identifier? "geometry" = some "geometry" := by decide +kernel
  refine ⟨_, requests, found, declaresType_iff.mpr ?_, (declaresModule_iff segments).mpr ?_⟩
  · rw [listed]
    exact ⟨_, List.mem_cons_self, rfl, named⟩
  · rw [listed]
    exact ⟨_, List.mem_cons_of_mem _ List.mem_cons_self, List.prefix_refl _⟩

end SlotArray
