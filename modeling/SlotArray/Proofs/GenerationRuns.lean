import SlotArray.Program
import SlotArray.Proofs.FileTrees
import SlotArray.Proofs.Passes

/-! How a run of the program ends. All that can go wrong with a manifest and its entries is found before
anything is written, so there is a short list of endings, and in all but one of them the files are as
they were. -/
namespace SlotArray
open Files (Place Tree)

variable {tree : Tree} {start : Place} {path : String} {error : PassError} {manifest : Manifest}

theorem eq_ok_of_toOption {ε α : Type} {result : Except ε α} {value : α}
    (found : result.toOption = some value) : result = .ok value := by
  cases result with
  | error error => cases found
  | ok other =>
    cases found
    rfl

/-! ## Manifests that cannot be used -/

/-- What keeps a manifest from being used: it cannot be read, it is no text, its text is no manifest, or
it asks for a number of workers that is out of range. -/
inductive Unusable (tree : Tree) (start : Place) (path : String) : PassError → Prop where
  | unread {fault : FileFault} (refused : tree.read start path = .error fault) :
      Unusable tree start path (.read path fault)
  | garbled {bytes : ByteArray} (held : tree.read start path = .ok bytes)
      (undecoded : String.fromUTF8? bytes = none) : Unusable tree start path (.read path .notUnicode)
  | malformed {bytes : ByteArray} {text : String} (held : tree.read start path = .ok bytes)
      (decoded : String.fromUTF8? bytes = some text)
      (unparsed : (Toml.Table.ofText? text).bind Manifest.ofTable? = none) :
      Unusable tree start path (.manifest path)
  | workers {bytes : ByteArray} {text : String} {manifest : Manifest} {count : Nat}
      (held : tree.read start path = .ok bytes) (decoded : String.fromUTF8? bytes = some text)
      (parsed : (Toml.Table.ofText? text).bind Manifest.ofTable? = some manifest)
      (asks : manifest.config.workers = some count)
      (outside : ¬ (1 ≤ count ∧ count ≤ maxWorkers)) :
      Unusable tree start path (.workerCount path count)

theorem parse_eq_error_iff {text origin : String} : Manifest.parse text origin = .error error ↔
    (Toml.Table.ofText? text).bind Manifest.ofTable? = none ∧ error = .manifest origin ∨
      ∃ manifest count, (Toml.Table.ofText? text).bind Manifest.ofTable? = some manifest ∧
        manifest.config.workers = some count ∧ ¬ (1 ≤ count ∧ count ≤ maxWorkers) ∧
        error = .workerCount origin count := by
  unfold Manifest.parse
  cases (Toml.Table.ofText? text).bind Manifest.ofTable? with
  | none => simp [eq_comm]
  | some manifest =>
    simp only [Option.some.injEq, reduceCtorEq, false_and, false_or]
    constructor
    · intro failed
      split at failed
      · rename_i count asks
        split at failed
        · cases failed
        · rename_i outside
          cases failed
          exact ⟨manifest, count, rfl, asks, outside, rfl⟩
      · cases failed
    · rintro ⟨_, count, rfl, asks, outside, rfl⟩
      simp only [asks, if_neg outside]

/-- A manifest is loaded unless there is a reason why it cannot be used. -/
theorem load_eq_error_iff : Manifest.load tree start path = .error error ↔
    Unusable tree start path error := by
  unfold Manifest.load Manifest.ofFile
  constructor
  · intro failed
    split at failed
    · rename_i refused
      cases failed
      exact .unread refused
    · rename_i bytes held
      split at failed
      · rename_i undecoded
        cases failed
        exact .garbled held undecoded
      · rename_i text decoded
        cases parsed : Manifest.parse text path with
        | ok manifest =>
          rw [parsed] at failed
          cases failed
        | error other =>
          rw [parsed] at failed
          cases failed
          rcases parse_eq_error_iff.mp parsed with
            ⟨unparsed, rfl⟩ | ⟨manifest, count, formed, asks, outside, rfl⟩
          · exact .malformed held decoded unparsed
          · exact .workers held decoded formed asks outside
  · intro unusable
    cases unusable with
    | unread refused => rw [refused]
    | garbled held undecoded => simp only [held, undecoded]
    | malformed held decoded unparsed =>
      simp only [held, decoded, parse_eq_error_iff.mpr (.inl ⟨unparsed, rfl⟩)]
      rfl
    | workers held decoded parsed asks outside =>
      simp only [held, decoded,
        parse_eq_error_iff.mpr (.inr ⟨_, _, parsed, asks, outside, rfl⟩)]
      rfl

/-- A manifest is loaded from a file that is read. -/
theorem exists_read_of_load (loaded : Manifest.load tree start path = .ok manifest) :
    ∃ bytes, tree.read start path = .ok bytes := by
  cases held : tree.read start path with
  | ok bytes => exact ⟨bytes, rfl⟩
  | error fault =>
    rw [load_eq_error_iff.mpr (.unread held)] at loaded
    cases loaded

/-- The bytes of a text are read as that text. -/
theorem fromUTF8?_toUTF8 (text : String) : String.fromUTF8? text.toUTF8 = some text :=
  dif_pos text.isValidUTF8

/-- A file that holds a text is loaded as the manifest that the text is. -/
theorem load_of_read {text : String} (held : tree.read start path = .ok text.toUTF8) :
    Manifest.load tree start path =
      (Manifest.parse text path).map fun manifest => { manifest with path := some path } := by
  unfold Manifest.load Manifest.ofFile
  simp only [held, fromUTF8?_toUTF8]

/-! ## Endings -/

namespace Options
variable {options : Options}

/-- The directory that a run writes into. -/
def destination (options : Options) (manifest : Manifest) : String :=
  options.outDir.getD manifest.outDir

/-- All ways in which a run ends, each with what it prints and what becomes of the files. -/
inductive Ends (options : Options) (start : Place) (tree : Tree) : Outcome × Tree → Prop where
  | unusable {error : PassError} (unusable : Unusable tree start options.manifest error) :
      Ends options start tree (.failure none error, tree)
  | refused {manifest : Manifest} {error : PassError}
      (loaded : Manifest.load tree start options.manifest = .ok manifest)
      (refused : discover .named manifest.occurrences = .error error) :
      Ends options start tree
        (.failure (if options.toStdout then none else some options.context) error, tree)
  | nothing {manifest : Manifest} (loaded : Manifest.load tree start options.manifest = .ok manifest)
      (nothing : discover .named manifest.occurrences = .ok []) :
      Ends options start tree (.success "", tree)
  | printed {manifest : Manifest} {text : String}
      (loaded : Manifest.load tree start options.manifest = .ok manifest)
      (made : (options.generator manifest).generate manifest.occurrences = .ok (some text))
      (prints : options.toStdout = true) : Ends options start tree (.success text, tree)
  | stored {manifest : Manifest} {text : String} {later : Tree}
      (loaded : Manifest.load tree start options.manifest = .ok manifest)
      (made : (options.generator manifest).generate manifest.occurrences = .ok (some text))
      (stores : options.toStdout = false)
      (stored : Files.sink start (options.destination manifest) (options.generator manifest).fileName
        text tree = (.ok (), later)) : Ends options start tree (.success "", later)
  | unwritable {manifest : Manifest} {text : String} {later : Tree} {error : PassError}
      (loaded : Manifest.load tree start options.manifest = .ok manifest)
      (made : (options.generator manifest).generate manifest.occurrences = .ok (some text))
      (stores : options.toStdout = false)
      (failed : Files.sink start (options.destination manifest) (options.generator manifest).fileName
        text tree = (.error error, later)) :
      Ends options start tree (.failure (some options.context) error, later)

theorem plan_of_error (failed : Manifest.load tree start options.manifest = .error error) :
    options.plan (tree.read start options.manifest) = .finish (.failure none error) := by
  have failed : Manifest.ofFile options.manifest (tree.read start options.manifest) = .error error :=
    failed
  rw [plan, failed]

theorem plan_of_load (loaded : Manifest.load tree start options.manifest = .ok manifest) :
    options.plan (tree.read start options.manifest) =
      if options.toStdout then
        match (options.generator manifest).generate manifest.occurrences with
        | .error error => .finish (.failure none error)
        | .ok text? => .finish (.success (text?.getD ""))
      else
        .store (options.generator manifest) manifest.occurrences (options.destination manifest) := by
  have loaded : Manifest.ofFile options.manifest (tree.read start options.manifest) = .ok manifest :=
    loaded
  rw [plan, loaded]
  rfl

/-- A run ends in one of these ways. -/
theorem run_ends (options : Options) (start : Place) (tree : Tree) :
    options.Ends start tree (options.run start tree) := by
  rw [run]
  cases loaded : Manifest.load tree start options.manifest with
  | error error =>
    rw [plan_of_error loaded]
    exact .unusable (load_eq_error_iff.mp loaded)
  | ok manifest =>
    rw [plan_of_load loaded]
    cases prints : options.toStdout with
    | true =>
      cases made : (options.generator manifest).generate manifest.occurrences with
      | error error =>
        have ended := Ends.refused loaded ((Generator.generate_eq_error_iff _).mp made)
        rw [prints] at ended
        exact ended
      | ok text? =>
        cases text? with
        | none => exact .nothing loaded ((Generator.generate_eq_none_iff _).mp made)
        | some text => exact .printed loaded made prints
    | false =>
      simp only [Bool.false_eq_true, ↓reduceIte]
      cases made : (options.generator manifest).generate manifest.occurrences with
      | error error =>
        have refused := (Generator.generate_eq_error_iff _).mp made
        rw [Generator.run_of_error _ refused]
        have ended := Ends.refused loaded refused
        rw [prints] at ended
        exact ended
      | ok text? =>
        cases text? with
        | none =>
          have nothing := (Generator.generate_eq_none_iff _).mp made
          rw [Generator.run_of_nothing _ nothing]
          exact .nothing loaded nothing
        | some text =>
          obtain ⟨requests, found, some, rfl⟩ := (Generator.generate_eq_some_iff _).mp made
          rw [Generator.run_of_discover _ found some]
          cases handed : Files.sink start (options.destination manifest)
              (options.generator manifest).fileName
              (Document.ofRequests (options.generator manifest).extraDerives requests).render tree with
          | mk result later =>
            cases result with
            | ok => exact .stored loaded made prints handed
            | error error => exact .unwritable loaded made prints handed

/-- A run ends in no other way. -/
theorem run_of_ends {ended : Outcome × Tree} (ends : options.Ends start tree ended) :
    options.run start tree = ended := by
  cases ends with
  | unusable unusable => rw [run, plan_of_error (load_eq_error_iff.mpr unusable)]
  | refused loaded refused =>
    rw [run, plan_of_load loaded]
    cases options.toStdout with
    | true => simp only [↓reduceIte, Generator.generate_of_error _ refused]
    | false =>
      simp only [Bool.false_eq_true, ↓reduceIte, Generator.run_of_error _ refused]
      rfl
  | nothing loaded nothing =>
    rw [run, plan_of_load loaded]
    cases options.toStdout with
    | true =>
      simp only [↓reduceIte, (Generator.generate_eq_none_iff _).mpr nothing]
      rfl
    | false =>
      simp only [Bool.false_eq_true, ↓reduceIte, Generator.run_of_nothing _ nothing]
      rfl
  | printed loaded made prints =>
    rw [run, plan_of_load loaded, prints]
    simp only [↓reduceIte, made]
    rfl
  | stored loaded made stores stored =>
    obtain ⟨requests, found, some, rfl⟩ := (Generator.generate_eq_some_iff _).mp made
    rw [run, plan_of_load loaded, stores]
    simp only [Bool.false_eq_true, ↓reduceIte, Generator.run_of_discover _ found some, stored]
    rfl
  | unwritable loaded made stores failed =>
    obtain ⟨requests, found, some, rfl⟩ := (Generator.generate_eq_some_iff _).mp made
    rw [run, plan_of_load loaded, stores]
    simp only [Bool.false_eq_true, ↓reduceIte, Generator.run_of_discover _ found some, failed]
    rfl

end Options

/-- A run that comes to nothing: it fails, prints nothing, and leaves all files as they were. -/
structure FailsQuietly (tree : Tree) (ended : Outcome × Tree) : Prop where
  exitCode : ended.1.exitCode = 1
  stdout : ended.1.stdout = ""
  report : ended.1.report.isSome = true
  files : ended.2 = tree

theorem failsQuietly_failure (context : Option String) (error : PassError) (tree : Tree) :
    FailsQuietly tree (.failure context error, tree) := ⟨rfl, rfl, rfl, rfl⟩

/-- The command line of a run says what to do, and the run does it. -/
theorem run_of_parse {inherited : Option String} {arguments : List String} {options : Options}
    (accepted : CommandLine.parse inherited arguments = .ok (.run options)) (start : Place)
    (tree : Tree) : CommandLine.run inherited arguments start tree = options.run start tree := by
  rw [CommandLine.run, accepted]

/-- Whatever the files and the command line, a run that has no document does nothing to the files. It
fails, and prints nothing, when the manifest cannot be used or something is wrong with any of the
entries; it succeeds, and prints nothing, when all entries are passed over. When it is asked to print,
it does nothing to the files in any case. There are no other reasons: any other manifest has a
document, which is printed when the run is asked to. -/
theorem pass_without_document {inherited : Option String} {arguments : List String}
    {options : Options} (accepted : CommandLine.parse inherited arguments = .ok (.run options))
    (start : Place) (tree : Tree) :
    ((∃ error, Unusable tree start options.manifest error) →
      FailsQuietly tree (CommandLine.run inherited arguments start tree)) ∧
    (∀ manifest, Manifest.load tree start options.manifest = .ok manifest →
      ((∃ i error, TroubleAt .named manifest.occurrences i error) →
        FailsQuietly tree (CommandLine.run inherited arguments start tree)) ∧
      ((∀ occurrence ∈ manifest.occurrences, IsPassedOver .named occurrence) →
        CommandLine.run inherited arguments start tree = (.success "", tree)) ∧
      ((∀ i error, ¬ TroubleAt .named manifest.occurrences i error) →
        (∃ occurrence ∈ manifest.occurrences, ¬ IsPassedOver .named occurrence) →
        ∃ text, text ≠ "" ∧
          (options.generator manifest).generate manifest.occurrences = .ok (some text) ∧
          (options.toStdout = true →
            CommandLine.run inherited arguments start tree = (.success text, tree)))) ∧
    (options.toStdout = true → (CommandLine.run inherited arguments start tree).2 = tree) := by
  rw [run_of_parse accepted]
  refine ⟨?_, ?_, ?_⟩
  · rintro ⟨error, unusable⟩
    rw [Options.run_of_ends (.unusable unusable)]
    exact failsQuietly_failure none error tree
  · intro manifest loaded
    refine ⟨?_, ?_, ?_⟩
    · intro trouble
      obtain ⟨error, refused⟩ := exists_discover_error_iff.mpr trouble
      rw [Options.run_of_ends (.refused loaded refused)]
      exact failsQuietly_failure _ error tree
    · intro passed
      exact Options.run_of_ends (.nothing loaded (discover_eq_nil_iff.mpr passed))
    · rintro untroubled ⟨occurrence, mem, enabled⟩
      have found := untroubled_iff.mp untroubled
      have some : asked .named manifest.occurrences ≠ [] := by
        intro nothing
        rw [nothing] at found
        exact enabled (discover_eq_nil_iff.mp found occurrence mem)
      have made := (Generator.generate_eq_some_iff (options.generator manifest)).mpr
        ⟨_, found, some, rfl⟩
      refine ⟨_, Document.render_ne_empty _, made, ?_⟩
      intro prints
      exact Options.run_of_ends (.printed loaded made prints)
  · intro prints
    have ends := options.run_ends start tree
    generalize options.run start tree = ended at ends ⊢
    cases ends with
    | unusable | refused | nothing | printed => rfl
    | stored _ _ stores | unwritable _ _ stores =>
      rw [prints] at stores
      cases stores

/-- Two entries of one name, with a directory to write into: it is not made. -/
theorem pass_without_document_repeated :
    let text := "[generator]\nout_dir = \"out\"\n[[struct_array]]\nname = \"A\"\n" ++
      "namespace = \"m\"\nsize = 1\n[[struct_array]]\nname = \"A\"\nnamespace = \"m\"\nsize = 2\n"
    let tree := Tree.empty.put ["m.toml"] (.file text.toUTF8)
    let options : Options := ⟨"m.toml", none, some 2, false, 0⟩
    CommandLine.parse none ["-j2", "m.toml"] = .ok (.run options) ∧
      (∃ manifest error, Manifest.load tree [] options.manifest = .ok manifest ∧
        discover .named manifest.occurrences = .error error) ∧
      FailsQuietly tree (CommandLine.run none ["-j2", "m.toml"] [] tree) := by
  intro text tree options
  have accepted : CommandLine.parse none ["-j2", "m.toml"] = .ok (.run options) := by decide +kernel
  have located : tree.locate [] "m.toml" = .ok (.name ["m.toml"] false) := by decide +kernel
  have held : tree.read [] "m.toml" = .ok text.toUTF8 :=
    Tree.read_eq_ok_iff.mpr ⟨_, located, Tree.get?_put_self _ (List.cons_ne_nil _ _) _⟩
  have parsed : ((Manifest.parse text "m.toml").toOption.map fun manifest =>
      discover .named { manifest with path := some "m.toml" : Manifest }.occurrences) =
        some (.error (.duplicateType "m::A")) := by decide +kernel
  obtain ⟨manifest, found, refused⟩ := Option.map_eq_some_iff.mp parsed
  have loaded : Manifest.load tree [] options.manifest =
      .ok { manifest with path := some "m.toml" } := by
    rw [load_of_read held, eq_ok_of_toOption found]
    rfl
  obtain ⟨_, used, _⟩ := pass_without_document accepted [] tree
  refine ⟨accepted, ⟨_, _, loaded, refused⟩, (used _ loaded).1 ?_⟩
  exact exists_discover_error_iff.mp ⟨_, refused⟩

end SlotArray
