import SlotArray.Proofs.CommandLines
import SlotArray.Proofs.GenerationRuns

/-! Printing a document and writing it. The two go different ways through a pass, but what is printed is
what is written, byte for byte, and one fails where the other does, unless it is the writing itself that
fails. Where the document goes is for the command line to say first, then for the environment, and then
for the manifest. -/
namespace SlotArray
open Files (Place Tree)

variable {start : Place} {tree later : Tree} {text : String}

/-! ## Reports -/

/-- A report on a file that cannot be written numbers its causes, from zero. -/
theorem report_of_write (context path : String) (cause : FileFault) :
    ∃ rest, (Outcome.failure (some context) (.write path cause)).report =
      some (context ++ ("\n\nCaused by:" ++ ("\n" ++ ("    " ++ ("0" ++ rest))))) := by
  refine ⟨?rest, ?report⟩
  case report =>
    simp only [Outcome.failure, PassError.chain, PassError.cause?, Option.toList, List.map, reportChain,
      List.mapIdx_cons, List.mapIdx_nil, String.join, List.foldl, String.empty_append, indentCause,
      Nat.toString_eq_repr, String.append_assoc]
    rfl

/-- A report on anything else has one cause, which it does not number. -/
theorem report_of_no_cause (context : String) {error : PassError} (plain : error.cause? = none) :
    (Outcome.failure (some context) error).report =
      some (context ++ ("\n\nCaused by:" ++ ("\n" ++ ("    " ++
        String.ofList (error.message.toList.flatMap fun c =>
          if c = '\n' then '\n' :: "    ".toList else [c]))))) := by
  have heading : "\n\nCaused by:\n" = "\n\nCaused by:" ++ "\n" := by decide
  simp only [Outcome.failure, PassError.chain, plain, Option.toList, List.map, reportChain,
    indentCause, heading, String.append_assoc]

/-- What is wrong with an entry is said in words. -/
theorem TroubleAt.toList_message {shape : Shape} {feed : List Occurrence} {i : Nat} {error : PassError}
    (trouble : TroubleAt shape feed i error) :
    ∃ c text, c ≠ '0' ∧ c ≠ '\n' ∧ error.message.toList = c :: text := by
  cases trouble with
  | @faulty occurrence tag fault =>
    have begins : (PassError.schema ⟨occurrence.declaration, tag.path, fault⟩).message =
        "invalid #[" ++ (tag.path ++ ("] on `" ++ (occurrence.declaration ++ ("`: " ++ fault.message)))) := by
      change SchemaError.message _ = _
      simp only [SchemaError.message, String.append_assoc]
    rw [begins, String.toList_append]
    exact ⟨'i', _, by decide, by decide, rfl⟩
  | @repeated _ _ request =>
    have begins : (PassError.duplicateType request.qualifiedName).message =
        "struct array `" ++ request.qualifiedName ++ "` is declared more than once" := rfl
    rw [begins, String.append_assoc, String.toList_append]
    exact ⟨'s', _, by decide, by decide, rfl⟩

/-- No report on an entry reads like one on a file. -/
theorem failure_ne_write {shape : Shape} {feed : List Occurrence} {error : PassError}
    (refused : discover shape feed = .error error) (context path : String) (cause : FileFault) :
    Outcome.failure (some context) error ≠ .failure (some context) (.write path cause) := by
  intro same
  obtain ⟨i, trouble, _⟩ := discover_eq_error_iff_first.mp refused
  have plain : error.cause? = none := by cases trouble <;> rfl
  obtain ⟨c, text, notZero, notBreak, begins⟩ := trouble.toList_message
  obtain ⟨rest, numbered⟩ := report_of_write context path cause
  have report := congrArg Outcome.report same
  rw [report_of_no_cause context plain, numbered, begins] at report
  simp only [Option.some.injEq, String.append_right_inj] at report
  have chars := congrArg String.toList report
  rw [String.toList_ofList, String.toList_append, List.flatMap_cons, if_neg notBreak] at chars
  exact notZero (List.cons.inj chars).1

/-! ## Agreement -/

/-- A run that has a document fails only because it cannot write it: it reports that the directory, or
the file in it, cannot be written. It may have made directories before. -/
structure CannotWrite (options : Options) (dir name : String) (tree : Tree)
    (ended : Outcome × Tree) : Prop where
  report : ∃ path cause, (path = dir ∨ path = Files.join dir name) ∧
    ended.1 = .failure (some options.context) (.write path cause)
  files : tree.Extends ended.2

/-- How two runs with one manifest agree of which one prints its document and the other one writes it
into a directory. A run that cannot write shows no document, so there the one that is meant is the one
that the settings make. -/
structure PassesAgree (options : Options) (start : Place) (tree : Tree) (manifest : Manifest)
    (dir : String) (printed stored : Outcome × Tree) : Prop where
  files : printed.2 = tree
  succeeds_iff : printed.1.exitCode = 0 ↔ stored.1.exitCode = 0 ∨
    CannotWrite options dir (options.generator manifest).fileName tree stored
  prints_iff : ∀ text, printed.1 = .success text ↔
    (∀ occurrence ∈ manifest.occurrences, IsPassedOver .named occurrence) ∧ text = "" ∧
        stored = (.success "", tree) ∨
      (∃ occurrence ∈ manifest.occurrences, ¬ IsPassedOver .named occurrence) ∧
        stored.1 = .success "" ∧
        Files.Stored start (Files.join dir (options.generator manifest).fileName) text tree stored.2 ∨
      (options.generator manifest).generate manifest.occurrences = .ok (some text) ∧
        CannotWrite options dir (options.generator manifest).fileName tree stored
  nothing : (∀ occurrence ∈ manifest.occurrences, IsPassedOver .named occurrence) →
    printed = (.success "", tree) ∧ stored = (.success "", tree)

/-- How two runs agree of which one prints its document and the other one writes it into a directory,
whatever the manifest is. -/
structure ModesAgree (options : Options) (start : Place) (tree : Tree) (dir : Manifest → String)
    (printed stored : Outcome × Tree) : Prop where
  unusable : ∀ error, Unusable tree start options.manifest error →
    printed = (.failure none error, tree) ∧ stored = (.failure none error, tree)
  usable : ∀ manifest, Manifest.load tree start options.manifest = .ok manifest →
    PassesAgree options start tree manifest (dir manifest) printed stored

/-- A file holds one document. -/
theorem Files.Stored.unique {path other : String} (stored : Files.Stored start path text tree later)
    (also : Files.Stored start path other tree later) : text = other := by
  have bytes := stored.held.symm.trans also.held
  rw [Except.ok.injEq] at bytes
  have decoded := fromUTF8?_toUTF8 text
  rw [bytes, fromUTF8?_toUTF8] at decoded
  exact (Option.some.inj decoded).symm

/-- Where both runs succeed, what the one prints is in the file of the other. -/
theorem PassesAgree.stored {options : Options} {manifest : Manifest} {dir : String}
    (agree : PassesAgree options start tree manifest dir (.success text, tree) (.success "", later))
    (notEmpty : text ≠ "") :
    Files.Stored start (Files.join dir (options.generator manifest).fileName) text tree later := by
  rcases (agree.prints_iff text).mp rfl with ⟨_, empty, _⟩ | ⟨_, _, held⟩ | ⟨_, cannot⟩
  · exact absurd empty notEmpty
  · exact held
  · obtain ⟨path, cause, _, fails⟩ := cannot.report
    cases fails

namespace Options
variable {options : Options} {manifest : Manifest} {dir : String}

theorem passesAgree_of_error {error : PassError}
    (failed : (options.generator manifest).generate manifest.occurrences = .error error) :
    PassesAgree options start tree manifest dir (.failure none error, tree)
      (.failure (some options.context) error, tree) where
  files := rfl
  succeeds_iff := by
    refine ⟨nofun, ?_⟩
    rintro (succeeds | ⟨⟨path, cause, _, same⟩, _⟩)
    · cases succeeds
    · exact absurd same (failure_ne_write ((Generator.generate_eq_error_iff _).mp failed) _ _ _)
  prints_iff text := by
    refine ⟨nofun, ?_⟩
    rintro (⟨_, _, same⟩ | ⟨_, same, _⟩ | ⟨made, _⟩)
    · cases same
    · cases same
    · rw [failed] at made
      cases made
  nothing passed := by
    rw [(Generator.generate_eq_none_iff _).mpr (discover_eq_nil_iff.mpr passed)] at failed
    cases failed

theorem passesAgree_of_nothing
    (nothing : (options.generator manifest).generate manifest.occurrences = .ok none) :
    PassesAgree options start tree manifest dir (.success "", tree) (.success "", tree) := by
  have passed := discover_eq_nil_iff.mp ((Generator.generate_eq_none_iff _).mp nothing)
  refine ⟨rfl, ⟨fun _ => .inl rfl, fun _ => rfl⟩, fun text => ⟨?_, ?_⟩, fun _ => ⟨rfl, rfl⟩⟩
  · intro printed
    cases printed
    exact .inl ⟨passed, rfl, rfl⟩
  · rintro (⟨_, rfl, _⟩ | ⟨⟨occurrence, mem, enabled⟩, _⟩ | ⟨made, _⟩)
    · rfl
    · exact absurd (passed occurrence mem) enabled
    · rw [nothing] at made
      cases made

theorem passesAgree_of_stored
    (made : (options.generator manifest).generate manifest.occurrences = .ok (some text))
    (stored : Files.Stored start (Files.join dir (options.generator manifest).fileName) text tree later) :
    PassesAgree options start tree manifest dir (.success text, tree) (.success "", later) := by
  obtain ⟨occurrence, mem, enabled⟩ := Generator.exists_enabled_of_generate made
  refine ⟨rfl, ⟨fun _ => .inl rfl, fun _ => rfl⟩, fun other => ⟨?_, ?_⟩, fun passed => ?_⟩
  · intro printed
    cases printed
    exact .inr (.inl ⟨⟨occurrence, mem, enabled⟩, rfl, stored⟩)
  · rintro (⟨passed, _⟩ | ⟨_, _, storedToo⟩ | ⟨madeToo, _⟩)
    · exact absurd (passed occurrence mem) enabled
    · rw [stored.unique storedToo]
    · rw [made] at madeToo
      cases madeToo
      rfl
  · exact absurd (passed occurrence mem) enabled

theorem passesAgree_of_unwritable {ended : Outcome × Tree}
    (made : (options.generator manifest).generate manifest.occurrences = .ok (some text))
    (cannot : CannotWrite options dir (options.generator manifest).fileName tree ended) :
    PassesAgree options start tree manifest dir (.success text, tree) ended := by
  obtain ⟨occurrence, mem, enabled⟩ := Generator.exists_enabled_of_generate made
  refine ⟨rfl, ⟨fun _ => .inr cannot, fun _ => rfl⟩, fun other => ⟨?_, ?_⟩, fun passed => ?_⟩
  · intro printed
    cases printed
    exact .inr (.inr ⟨made, cannot⟩)
  · rintro (⟨passed, _⟩ | ⟨_, succeeds, _⟩ | ⟨madeToo, _⟩)
    · exact absurd (passed occurrence mem) enabled
    · obtain ⟨path, cause, _, fails⟩ := cannot.report
      rw [fails] at succeeds
      cases succeeds
    · rw [made] at madeToo
      cases madeToo
      rfl
  · exact absurd (passed occurrence mem) enabled

/-- A run into any directory agrees with the run that prints instead. -/
theorem modesAgree (silent : options.toStdout = false) (outDir : Option String) (start : Place)
    (tree : Tree) : ModesAgree options start tree { options with outDir }.destination
      ({ options with toStdout := true }.run start tree) ({ options with outDir }.run start tree) := by
  have prints {ended} (ends : { options with toStdout := true }.Ends start tree ended) :
      { options with toStdout := true }.run start tree = ended := run_of_ends ends
  have stores {ended} (ends : { options with outDir }.Ends start tree ended) :
      { options with outDir }.run start tree = ended := run_of_ends ends
  refine ⟨fun error unusable => ⟨prints (.unusable unusable), stores (.unusable unusable)⟩, ?_⟩
  intro manifest loaded
  cases made : (options.generator manifest).generate manifest.occurrences with
  | error error =>
    have refused := (Generator.generate_eq_error_iff _).mp made
    rw [prints (.refused loaded refused), stores (.refused loaded refused)]
    simp only [silent, Bool.false_eq_true, ↓reduceIte]
    exact passesAgree_of_error made
  | ok text? =>
    cases text? with
    | none =>
      have nothing := (Generator.generate_eq_none_iff _).mp made
      rw [prints (.nothing loaded nothing), stores (.nothing loaded nothing)]
      exact passesAgree_of_nothing made
    | some text =>
      rw [prints (.printed loaded made rfl)]
      cases handed : Files.sink start ({ options with outDir }.destination manifest)
          (options.generator manifest).fileName text tree with
      | mk result later =>
        cases result with
        | ok =>
          rw [stores (.stored loaded made silent handed)]
          exact passesAgree_of_stored made (Files.stored_of_sink handed)
        | error error =>
          rw [stores (.unwritable loaded made silent handed)]
          obtain ⟨⟨path, cause, one, rfl⟩, more⟩ := Files.write_error_of_sink handed
          exact passesAgree_of_unwritable made ⟨⟨path, cause, one, rfl⟩, more⟩

end Options

/-- The document that a run prints is the one that it writes when it is not asked to print, byte for
byte, into the directory of the manifest; or it could not write it. That is so for each other directory
that the environment names, and for each one that the command line names, whatever the environment
names. -/
theorem printed_document_is_stored {inherited : Option String} {before after : List String}
    {plain printing : Options} (optional : "--" ∉ before)
    (stores : CommandLine.parse inherited (before ++ after) = .ok (.run plain))
    (prints : CommandLine.parse inherited (before ++ ["--stdout"] ++ after) = .ok (.run printing))
    (start : Place) (tree : Tree) :
    let printed := CommandLine.run inherited (before ++ ["--stdout"] ++ after) start tree
    ModesAgree plain start tree Manifest.outDir printed
      (CommandLine.run inherited (before ++ after) start tree) ∧
    (∀ dir ≠ "", ModesAgree plain start tree (fun _ => dir) printed
      (CommandLine.run (some dir) (before ++ after) start tree)) ∧
    (∀ dir environment left given right named, left ++ right = before ++ after → "--" ∉ left →
      CommandLine.NamesDirectory dir given →
      CommandLine.parse environment (left ++ given ++ right) = .ok (.run named) →
      ModesAgree plain start tree (fun _ => dir) printed
        (CommandLine.run environment (left ++ given ++ right) start tree)) := by
  intro printed
  obtain ⟨silent, absent, rfl⟩ := CommandLine.parse_insert_stdout optional stores prints
  have inManifest : plain.destination = Manifest.outDir := by
    funext manifest
    rw [Options.destination, absent]
    rfl
  have printing : printed = { plain with toStdout := true }.run start tree := run_of_parse prints start tree
  rw [printing]
  refine ⟨?_, ?_, ?_⟩
  · rw [run_of_parse stores, ← inManifest]
    exact Options.modesAgree silent plain.outDir start tree
  · intro dir notEmpty
    rw [run_of_parse (CommandLine.parse_environment notEmpty silent absent stores)]
    exact Options.modesAgree silent (some dir) start tree
  · intro dir environment left given right named same optional names accepted
    rw [← same] at stores
    obtain rfl := CommandLine.parse_insert_directory names optional stores accepted
    rw [run_of_parse accepted]
    exact Options.modesAgree silent (some dir) start tree

/-- A manifest in a directory, which names another one below it; then the environment names a directory,
and the command line still another one. -/
theorem printed_document_is_stored_below :
    let text := "[generator]\nout_dir = \"out\"\nfile_name = \"t.rs\"\n[[struct_array]]\n" ++
      "name = \"A\"\nnamespace = \"m\"\nsize = 1\n"
    let tree := (Tree.empty.put ["d"] .directory).put ["d", "m.toml"] (.file text.toUTF8)
    let plain : Options := ⟨"d/m.toml", none, some 2, false, 0⟩
    CommandLine.parse none (["-j2"] ++ ["d/m.toml"]) = .ok (.run plain) ∧
      CommandLine.parse none (["-j2"] ++ ["--stdout"] ++ ["d/m.toml"]) =
        .ok (.run { plain with toStdout := true }) ∧
      CommandLine.parse (some "env") (["-j2"] ++ ["-o", "gen"] ++ ["d/m.toml"]) =
        .ok (.run { plain with outDir := some "gen" }) ∧
      ∃ document below byEnvironment byOption, document ≠ "" ∧
        CommandLine.run none (["-j2"] ++ ["--stdout"] ++ ["d/m.toml"]) [] tree =
          (.success document, tree) ∧
        CommandLine.run none (["-j2"] ++ ["d/m.toml"]) [] tree = (.success "", below) ∧
        Files.Stored [] "d/out/t.rs" document tree below ∧
        CommandLine.run (some "env") (["-j2"] ++ ["d/m.toml"]) [] tree =
          (.success "", byEnvironment) ∧
        Files.Stored [] "env/t.rs" document tree byEnvironment ∧
        CommandLine.run (some "env") (["-j2"] ++ ["-o", "gen"] ++ ["d/m.toml"]) [] tree =
          (.success "", byOption) ∧
        Files.Stored [] "gen/t.rs" document tree byOption := by
  intro text tree plain
  have stores : CommandLine.parse none (["-j2"] ++ ["d/m.toml"]) = .ok (.run plain) := by
    decide +kernel
  have prints : CommandLine.parse none (["-j2"] ++ ["--stdout"] ++ ["d/m.toml"]) =
      .ok (.run { plain with toStdout := true }) := by
    decide +kernel
  have names : CommandLine.parse (some "env") (["-j2"] ++ ["-o", "gen"] ++ ["d/m.toml"]) =
      .ok (.run { plain with outDir := some "gen" }) := by
    decide +kernel
  refine ⟨stores, prints, names, ?_⟩
  have unended : "--" ∉ ["-j2"] := by decide
  obtain ⟨ofManifest, ofEnvironment, ofOption⟩ :=
    printed_document_is_stored unended stores prints [] tree
  have ofEnvironment := ofEnvironment "env" (by decide)
  have ofOption := ofOption "gen" (some "env") ["-j2"] _ ["d/m.toml"] _ rfl unended .short names
  have leads : ((Manifest.load tree [] "d/m.toml").toOption.map fun manifest =>
      (manifest.outDir, (plain.generator manifest).fileName)) = some ("d/out", "t.rs") := by
    decide +kernel
  obtain ⟨⟨shown, notEmpty, unreported⟩, written, writtenThere, writtenElsewhere⟩ :
      (let outcome := (CommandLine.run none (["-j2"] ++ ["--stdout"] ++ ["d/m.toml"]) [] tree).1;
        outcome.exitCode = 0 ∧ outcome.stdout ≠ "" ∧ outcome.report = none) ∧
      (CommandLine.run none (["-j2"] ++ ["d/m.toml"]) [] tree).1 = .success "" ∧
      (CommandLine.run (some "env") (["-j2"] ++ ["d/m.toml"]) [] tree).1 = .success "" ∧
      (CommandLine.run (some "env") (["-j2"] ++ ["-o", "gen"] ++ ["d/m.toml"]) [] tree).1 =
        .success "" := by
    decide +kernel
  generalize CommandLine.run none (["-j2"] ++ ["--stdout"] ++ ["d/m.toml"]) [] tree = printed at *
  generalize CommandLine.run none (["-j2"] ++ ["d/m.toml"]) [] tree = stored at *
  generalize CommandLine.run (some "env") (["-j2"] ++ ["d/m.toml"]) [] tree = there at *
  generalize CommandLine.run (some "env") (["-j2"] ++ ["-o", "gen"] ++ ["d/m.toml"]) [] tree =
    elsewhere at *
  obtain ⟨⟨exitCode, document, report⟩, same⟩ := printed
  obtain ⟨_, below⟩ := stored
  obtain ⟨_, byEnvironment⟩ := there
  obtain ⟨_, byOption⟩ := elsewhere
  cases shown
  cases unreported
  cases written
  cases writtenThere
  cases writtenElsewhere
  obtain ⟨manifest, loaded, named⟩ := Option.map_eq_some_iff.mp leads
  obtain ⟨dir, name⟩ := Prod.mk.inj named
  have loaded : Manifest.load tree [] plain.manifest = .ok manifest := eq_ok_of_toOption loaded
  have ofManifest := ofManifest.usable manifest loaded
  obtain rfl : same = tree := ofManifest.files
  have heldBelow := ofManifest.stored notEmpty
  have heldThere := (ofEnvironment.usable manifest loaded).stored notEmpty
  have heldElsewhere := (ofOption.usable manifest loaded).stored notEmpty
  rw [name] at heldBelow heldThere heldElsewhere
  rw [dir] at heldBelow
  exact ⟨document, below, byEnvironment, byOption, notEmpty, rfl, rfl, heldBelow, rfl, heldThere, rfl,
    heldElsewhere⟩

end SlotArray
