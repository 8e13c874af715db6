import Mathlib.Data.List.DropRight
import SlotArray.Proofs.Passes
import SlotArray.Session

/-! Sessions as a whole. What a session has come to can be told from the steps it took, without taking
them again: a setting is what the last step that set it said, and the sources are what the runs with
something to write brought, each under the settings in force where it stood. -/
namespace SlotArray

variable {before : List SessionStep} {feed : List Occurrence}

/-! ## The settings in force -/

namespace SessionStep

/-- The configuration that a step brings, if it brings one and that is accepted. -/
def config? : SessionStep → Option Config
  | .configure text => (Manifest.parse text Session.origin).toOption.map Manifest.config
  | _ => none

/-- The number of workers that a step sets. A configuration sets every setting: those it does not
name are as they were before the first step. -/
def workers? : SessionStep → Option Nat
  | .workers count => some count
  | step => step.config?.map fun config => config.workers.getD Generator.initial.workers

/-- The file name that a step sets. -/
def fileName? : SessionStep → Option String
  | .fileName name => some name
  | step => step.config?.map fun config => config.fileName.getD outputFileName

/-- The extra derive that a step adds. -/
def extraDerive? : SessionStep → Option String
  | .extraDerive path => some path
  | _ => none

end SessionStep

/-- The settings in force behind some steps. The extra derives are those of the last configuration,
and behind them what was added since. -/
def settled (steps : List SessionStep) : Generator where
  extraDerives :=
    (steps.filterMap SessionStep.config?).getLast?.elim [] Config.extraDerives ++
      (steps.rtakeWhile fun step => step.config?.isNone).filterMap SessionStep.extraDerive?
  workers := (steps.filterMap SessionStep.workers?).getLast?.getD Generator.initial.workers
  fileName := (steps.filterMap SessionStep.fileName?).getLast?.getD outputFileName

/-! ## What is handed over -/

/-- The source that a run makes of a feed, nothing if the feed fails or asks for nothing. -/
def Generator.delivery? (generator : Generator) (feed : List Occurrence) : Option (String × String) :=
  (generator.generate feed).toOption.join.map fun text => (generator.fileName, text)

/-- The source that a step makes behind others. -/
def SessionStep.delivery? (before : List SessionStep) : SessionStep → Option (String × String)
  | .run feed => (settled before).delivery? feed
  | _ => none

/-- The sources that steps make, in their order. -/
def deliveries (steps : List SessionStep) : Sources :=
  (List.range steps.length).filterMap fun place =>
    steps[place]?.bind (SessionStep.delivery? (steps.take place))

/-- What a step answers behind others. -/
inductive Answered (before : List SessionStep) : SessionStep → StepAnswer → Prop where
  | workers (count : Nat) : Answered before (.workers count) .done
  | extraDerive (path : String) : Answered before (.extraDerive path) .done
  | fileName (name : String) : Answered before (.fileName name) .done
  | accepted {text : String} {manifest : Manifest}
      (parsed : Manifest.parse text Session.origin = .ok manifest) :
      Answered before (.configure text) .done
  | rejected {text : String} {error : PassError}
      (refused : Manifest.parse text Session.origin = .error error) :
      Answered before (.configure text) (.rejected error)
  | counted {feed : List Occurrence} {requests : List Request} {text? : Option String}
      (found : discover .named feed = .ok requests)
      (made : (settled before).generate feed = .ok text?) :
      Answered before (.run feed) (.ran (.ok requests.length) (deliveries (before ++ [.run feed])))
  | failed {feed : List Occurrence} {error : PassError}
      (refused : (settled before).generate feed = .error error) :
      Answered before (.run feed) (.ran (.error error) (deliveries before))
  | generated (feed : List Occurrence) :
      Answered before (.generate feed) (.generated ((settled before).generate feed))

/-- The steps that leave a session with given settings as it is. -/
inductive ChangesNothing (generator : Generator) : SessionStep → Prop where
  | generate (feed : List Occurrence) : ChangesNothing generator (.generate feed)
  | empty {feed : List Occurrence} (nothing : generator.generate feed = .ok none) :
      ChangesNothing generator (.run feed)
  | failing {feed : List Occurrence} {error : PassError}
      (refused : generator.generate feed = .error error) : ChangesNothing generator (.run feed)
  | rejected {text : String} {error : PassError}
      (refused : Manifest.parse text Session.origin = .error error) :
      ChangesNothing generator (.configure text)

/-! ## One more step -/

section Concat
variable {step : SessionStep}

theorem deliveries_concat (before : List SessionStep) (step : SessionStep) :
    deliveries (before ++ [step]) = deliveries before ++ (step.delivery? before).toList := by
  have earlier : (List.range before.length).filterMap (fun place =>
      (before ++ [step])[place]?.bind (SessionStep.delivery? ((before ++ [step]).take place))) =
        deliveries before := by
    apply List.filterMap_congr
    intro place mem
    have within : place < before.length := List.mem_range.mp mem
    rw [List.getElem?_append_left within, List.take_append_of_le_length (Nat.le_of_lt within)]
  rw [deliveries, List.length_append, List.length_singleton, List.range_succ, List.filterMap_append,
    earlier, List.filterMap_cons, List.filterMap_nil, List.getElem?_concat_length, Option.bind_some,
    List.take_left' rfl]
  cases step.delivery? before <;> rfl

theorem delivery?_eq_of_generate (generator : Generator) {text? : Option String}
    (made : generator.generate feed = .ok text?) :
    generator.delivery? feed = text?.map fun text => (generator.fileName, text) := by
  rw [Generator.delivery?, made]
  rfl

theorem delivery?_eq_none (generator : Generator) {error : PassError}
    (failed : generator.generate feed = .error error) : generator.delivery? feed = none := by
  rw [Generator.delivery?, failed]
  rfl

/-- A configuration settles everything, whatever was set before it. -/
theorem settled_concat_of_config? {config : Config} (brings : step.config? = some config) :
    settled (before ++ [step]) = .ofConfig config := by
  cases step with
  | configure text =>
    have workers : (SessionStep.configure text).workers? =
        some (config.workers.getD Generator.initial.workers) := by
      rw [SessionStep.workers?, brings]
      · rfl
      · nofun
    have fileName : (SessionStep.configure text).fileName? =
        some (config.fileName.getD outputFileName) := by
      rw [SessionStep.fileName?, brings]
      · rfl
      · nofun
    simp [settled, List.filterMap_append, brings, workers, fileName, Generator.ofConfig]
  | workers | extraDerive | fileName | run | generate => cases brings

/-- Any other step settles what it sets, and leaves the rest. -/
theorem settled_concat_of_no_config (brings : step.config? = none) :
    settled (before ++ [step]) =
      ⟨(settled before).extraDerives ++ step.extraDerive?.toList,
        step.workers?.getD (settled before).workers,
        step.fileName?.getD (settled before).fileName⟩ := by
  have since : (before ++ [step]).rtakeWhile (fun step => step.config?.isNone) =
      before.rtakeWhile (fun step => step.config?.isNone) ++ [step] :=
    List.rtakeWhile_concat_pos _ _ _ (by rw [brings]; rfl)
  simp only [settled, since, List.filterMap_append, List.filterMap_cons, List.filterMap_nil, brings,
    List.append_nil]
  cases step.extraDerive? <;> cases step.workers? <;> cases step.fileName? <;> simp

/-- A step that sets nothing leaves all settings. -/
theorem settled_concat_of_idle (brings : step.config? = none) (workers : step.workers? = none)
    (fileName : step.fileName? = none) (extraDerive : step.extraDerive? = none) :
    settled (before ++ [step]) = settled before := by
  rw [settled_concat_of_no_config brings, workers, fileName, extraDerive, Option.toList_none,
    List.append_nil]
  rfl

theorem config?_eq_none {text : String} {error : PassError}
    (refused : Manifest.parse text Session.origin = .error error) :
    (SessionStep.configure text).config? = none := by
  rw [SessionStep.config?, refused]
  rfl

theorem config?_eq_some {text : String} {manifest : Manifest}
    (parsed : Manifest.parse text Session.origin = .ok manifest) :
    (SessionStep.configure text).config? = some manifest.config := by
  rw [SessionStep.config?, parsed]
  rfl

theorem settled_concat_of_changesNothing (idle : ChangesNothing (settled before) step) :
    settled (before ++ [step]) = settled before := by
  cases idle with
  | generate | empty | failing => exact settled_concat_of_idle rfl rfl rfl rfl
  | rejected refused =>
    have brings := config?_eq_none refused
    apply settled_concat_of_idle brings _ _ rfl
    · rw [SessionStep.workers?, brings]
      · rfl
      · nofun
    · rw [SessionStep.fileName?, brings]
      · rfl
      · nofun

theorem deliveries_concat_of_changesNothing (idle : ChangesNothing (settled before) step) :
    deliveries (before ++ [step]) = deliveries before := by
  rw [deliveries_concat]
  cases idle with
  | generate | rejected => exact List.append_nil _
  | empty nothing =>
    rw [SessionStep.delivery?, delivery?_eq_of_generate _ nothing]
    exact List.append_nil _
  | failing refused =>
    rw [SessionStep.delivery?, delivery?_eq_none _ refused]
    exact List.append_nil _

/-- A step that sets something hands nothing over. -/
theorem deliveries_concat_of_setting (silent : step.delivery? before = none) :
    deliveries (before ++ [step]) = deliveries before := by
  rw [deliveries_concat, silent]
  exact List.append_nil _

/-- A run hands its text over, counts what it has written, and fails as generating fails. -/
theorem run_answered (before : List SessionStep) (feed : List Occurrence) :
    ∃ answer, (Session.mk (settled before) (deliveries before)).step (.run feed) =
      (answer, ⟨settled (before ++ [.run feed]), deliveries (before ++ [.run feed])⟩) ∧
        Answered before (.run feed) answer := by
  cases made : (settled before).generate feed with
  | error error =>
    have idle : ChangesNothing (settled before) (.run feed) := .failing made
    refine ⟨_, ?_, .failed made⟩
    rw [settled_concat_of_changesNothing idle, deliveries_concat_of_changesNothing idle, Session.step,
      Generator.run_of_error _ ((Generator.generate_eq_error_iff _).mp made)]
  | ok text? =>
    obtain ⟨requests, found, same⟩ := (Generator.generate_eq_ok_iff _).mp made
    refine ⟨_, ?_, .counted found made⟩
    by_cases nothing : requests = []
    · subst nothing
      rw [if_pos rfl] at same
      subst same
      have idle : ChangesNothing (settled before) (.run feed) := .empty made
      rw [settled_concat_of_changesNothing idle, deliveries_concat_of_changesNothing idle,
        Session.step, Generator.run_of_nothing _ found]
      rfl
    · rw [if_neg nothing] at same
      subst same
      have handed : deliveries (before ++ [.run feed]) = deliveries before ++
          [((settled before).fileName,
            (Document.ofRequests (settled before).extraDerives requests).render)] := by
        rw [deliveries_concat, SessionStep.delivery?, delivery?_eq_of_generate _ made]
        rfl
      rw [settled_concat_of_idle rfl rfl rfl rfl, handed, Session.step,
        Generator.run_of_discover _ found nothing]
      rfl

/-- A step answers, and leaves the session, as the steps so far and it say. -/
theorem step_answered (before : List SessionStep) (step : SessionStep) :
    ∃ answer, (Session.mk (settled before) (deliveries before)).step step =
      (answer, ⟨settled (before ++ [step]), deliveries (before ++ [step])⟩) ∧
        Answered before step answer := by
  cases step with
  | workers count =>
    refine ⟨_, ?_, .workers count⟩
    rw [settled_concat_of_no_config rfl, deliveries_concat_of_setting rfl]
    exact congrArg (fun derives => (StepAnswer.done, Session.mk ⟨derives, _, _⟩ _))
      (List.append_nil _).symm
  | extraDerive path =>
    refine ⟨_, ?_, .extraDerive path⟩
    rw [settled_concat_of_no_config rfl, deliveries_concat_of_setting rfl]
    rfl
  | fileName name =>
    refine ⟨_, ?_, .fileName name⟩
    rw [settled_concat_of_no_config rfl, deliveries_concat_of_setting rfl]
    exact congrArg (fun derives => (StepAnswer.done, Session.mk ⟨derives, _, _⟩ _))
      (List.append_nil _).symm
  | configure text =>
    cases parsed : Manifest.parse text Session.origin with
    | error error =>
      have idle : ChangesNothing (settled before) (.configure text) := .rejected parsed
      refine ⟨_, ?_, .rejected parsed⟩
      rw [settled_concat_of_changesNothing idle, deliveries_concat_of_changesNothing idle,
        Session.step, parsed]
    | ok manifest =>
      refine ⟨_, ?_, .accepted parsed⟩
      rw [settled_concat_of_config? (config?_eq_some parsed), deliveries_concat_of_setting rfl,
        Session.step, parsed]
  | run feed => exact run_answered before feed
  | generate feed =>
    have idle : ChangesNothing (settled before) (.generate feed) := .generate feed
    refine ⟨_, ?_, .generated feed⟩
    rw [settled_concat_of_changesNothing idle, deliveries_concat_of_changesNothing idle, Session.step]

end Concat

/-! ## All steps -/

/-- Steps taken behind others go on from where those led. -/
theorem play_answered (before steps : List SessionStep) :
    ∃ answers events, (Session.mk (settled before) (deliveries before)).play steps =
      (answers, events, ⟨settled (before ++ steps), deliveries (before ++ steps)⟩) ∧
        answers.length = steps.length ∧
        ∀ (place : Nat) (step : SessionStep), steps[place]? = some step →
          ∃ answer, answers[place]? = some answer ∧
            Answered (before ++ steps.take place) step answer := by
  induction steps generalizing before with
  | nil =>
    refine ⟨[], [], ?_, rfl, ?_⟩
    · rw [List.append_nil]
      rfl
    · intro place step here
      cases here
  | cons first rest ih =>
    obtain ⟨answer, stepped, answered⟩ := step_answered before first
    obtain ⟨answers, events, played, count, later⟩ := ih (before ++ [first])
    rw [List.append_assoc, List.singleton_append] at played
    refine ⟨answer :: answers,
      (Session.mk (settled before) (deliveries before)).stepEvents first ++ events, ?_,
      congrArg Nat.succ count, ?_⟩
    · rw [Session.play, stepped]
      dsimp only
      rw [played]
    · intro place step here
      cases place with
      | zero =>
        cases here
        refine ⟨answer, rfl, ?_⟩
        rw [List.take_zero, List.append_nil]
        exact answered
      | succ place =>
        obtain ⟨answer, there, answered⟩ := later place step here
        refine ⟨answer, there, ?_⟩
        rw [List.append_assoc, List.singleton_append] at answered
        exact answered

/-- What a session has come to, and what it answered on the way, is told by its steps. At every moment
its sources are one for each run so far that had something to write, in their order, under the name
and with the text of the settings in force there; a run counts what it writes and fails exactly as
generating fails. Generating, runs that fail or have nothing to write, and configurations that are
rejected change nothing; an accepted one replaces all settings, the extra derives among them. The text
is the one that a pool with one thread comes to, whatever its schedule. -/
theorem session_follows_steps (steps : List SessionStep) :
    (∃ answers events, Session.initial.play steps =
      (answers, events, ⟨settled steps, deliveries steps⟩) ∧ answers.length = steps.length ∧
        ∀ (place : Nat) (step : SessionStep), steps[place]? = some step →
          ∃ answer, answers[place]? = some answer ∧ Answered (steps.take place) step answer) ∧
    (∀ step, ChangesNothing (settled steps) step →
      settled (steps ++ [step]) = settled steps ∧ deliveries (steps ++ [step]) = deliveries steps) ∧
    (∀ text manifest, Manifest.parse text Session.origin = .ok manifest →
      settled (steps ++ [.configure text]) = .ofConfig manifest.config ∧
        (settled (steps ++ [.configure text])).extraDerives = manifest.config.extraDerives) ∧
    ∀ feed requests, discover .named feed = .ok requests → requests ≠ [] →
      ∀ turns pool, (Pool.start 1 requests).play (settled steps).extraDerives turns = some pool →
        pool.isDone = true →
          (settled steps).generate feed = .ok (some pool.document.render) ∧
            deliveries (steps ++ [.run feed]) =
              deliveries steps ++ [((settled steps).fileName, pool.document.render)] := by
  refine ⟨?_, ?_, ?_, ?_⟩
  · exact play_answered [] steps
  · intro step idle
    exact ⟨settled_concat_of_changesNothing idle, deliveries_concat_of_changesNothing idle⟩
  · intro text manifest parsed
    have replaced : settled (steps ++ [.configure text]) = .ofConfig manifest.config :=
      settled_concat_of_config? (config?_eq_some parsed)
    exact ⟨replaced, congrArg Generator.extraDerives replaced⟩
  · intro feed requests found some turns pool played done
    have made := (settled steps).generate_of_single_thread found some played done
    refine ⟨made, ?_⟩
    rw [deliveries_concat, SessionStep.delivery?, delivery?_eq_of_generate _ made]
    rfl

/-- A manifest takes the place of what was set before it, and a run goes by the manifest. -/
theorem session_follows_steps_configured :
    ∃ (steps : List SessionStep) (feed : List Occurrence) (text : String),
      steps.head? = some (.extraDerive "Old") ∧ settled steps = ⟨["New"], 1, "new.rs"⟩ ∧
        (settled steps).generate feed = .ok (some text) ∧
        deliveries (steps ++ [.run feed]) = [("new.rs", text)] := by
  let steps : List SessionStep := [.extraDerive "Old",
    .configure "[generator]\nextra_derives = [\"New\"]\nfile_name = \"new.rs\"\n"]
  let feed : List Occurrence :=
    [⟨"a", [⟨"struct_array", [.string "Pair", .string "m", .integer 2]⟩]⟩]
  let request : Request := ⟨"Pair", ⟨["m"]⟩, ⟨2, by decide, by decide⟩⟩
  have found : discover .named feed = .ok [request] := by decide +kernel
  have inForce : settled steps = ⟨["New"], 1, "new.rs"⟩ := by decide +kernel
  have staffed : (Pool.start 1 [request]).workers ≠ [] := List.cons_ne_nil _ _
  obtain ⟨turns, pool, played, done⟩ : ∃ turns pool,
      (Pool.start 1 [request]).play (settled steps).extraDerives turns = some pool ∧
        pool.isDone = true := Pool.exists_finish staffed
  obtain ⟨_, _, _, written⟩ := session_follows_steps steps
  obtain ⟨made, handed⟩ := written feed [request] found (List.cons_ne_nil _ _) turns pool played done
  refine ⟨steps, feed, pool.document.render, rfl, inForce, made, ?_⟩
  rw [handed, inForce]
  rfl

end SlotArray
