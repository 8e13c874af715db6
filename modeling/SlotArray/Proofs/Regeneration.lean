import SlotArray.Proofs.GenerationRuns

/-! Running a command line twice. The first run leaves a document behind, which the second one finds: it
writes the same once more, and all stays as it is. The exception is a document that went where the
manifest was. It is no manifest, so the second run fails. -/
namespace SlotArray
open Files (Place Tree)

variable {start : Place} {tree later : Tree} {path text : String} {options : Options}

/-! ## A document is no manifest -/

/-- A text of TOML does not begin with a slash. -/
theorem Toml.ofText?_of_slash {rest : List Char} (begins : text.toList = '/' :: rest) :
    Toml.Table.ofText? text = none := by
  have nothing : Toml.statements ('/' :: rest) = some ([], '/' :: rest) := rfl
  have noMark : ¬ ('/' :: rest).head? = some '\ufeff' := by
    intro mark
    exact absurd (Option.some.inj mark) (by decide)
  unfold Toml.Table.ofText?
  simp only [begins, if_neg noMark, Reading.whole, nothing, Option.bind_none]

/-- A manifest that a document was written over cannot be used. -/
theorem unusable_of_document {document : Document}
    (held : tree.read start path = .ok document.render.toUTF8) :
    Unusable tree start path (.manifest path) := by
  have begins : document.render.toList =
      '/' :: ("/ @generated by struct-array-gen. Do not edit by hand.\n".toList ++
        Document.sectionsText [] document.sections) := by
    rw [Document.render, String.toList_append, String.toList_ofList]
    rfl
  refine .malformed held (fromUTF8?_toUTF8 _) ?_
  rw [Toml.ofText?_of_slash begins]
  rfl

/-! ## The second run -/

/-- The document of a run goes where its manifest is: there is a document to write, and its path leads
where the path of the manifest leads. Directories on the way may have been made, so this shows only in
the files that the run leaves. -/
structure Overwrites (options : Options) (manifest : Manifest) (start : Place) (later : Tree) :
    Prop where
  silent : options.toStdout = false
  enabled : ∃ occurrence ∈ manifest.occurrences, ¬ IsPassedOver .named occurrence
  same : later.locate start options.manifest = later.locate start
    (Files.join (options.destination manifest) (options.generator manifest).fileName)

/-- A command line that asks for no run does nothing to the files. -/
theorem files_of_not_run {inherited : Option String} {arguments : List String}
    (idle : ¬ ∃ options, CommandLine.parse inherited arguments = .ok (.run options)) (start : Place)
    (tree : Tree) : (CommandLine.run inherited arguments start tree).2 = tree := by
  rw [CommandLine.run]
  split
  · rfl
  · rfl
  · rfl
  · rename_i options parsed
    exact absurd ⟨options, parsed⟩ idle

namespace Options

/-- A run that spared its manifest does the same when it is repeated. -/
theorem run_again (succeeds : (options.run start tree).1.exitCode = 0)
    (spared : ∀ manifest, Manifest.load tree start options.manifest = .ok manifest →
      ¬ Overwrites options manifest start (options.run start tree).2) :
    options.run start (options.run start tree).2 = options.run start tree ∧
      (options.run start tree).2.read start options.manifest = tree.read start options.manifest := by
  have ends := options.run_ends start tree
  generalize ran : options.run start tree = ended at *
  cases ends with
  | unusable | refused | unwritable => cases succeeds
  | nothing | printed => exact ⟨ran, rfl⟩
  | @stored manifest text later loaded made stores handed =>
    obtain ⟨bytes, held⟩ := exists_read_of_load loaded
    have apart : later.locate start options.manifest ≠ later.locate start
        (Files.join (options.destination manifest) (options.generator manifest).fileName) :=
      fun same => spared manifest loaded ⟨stores, Generator.exists_enabled_of_generate made, same⟩
    have kept : later.read start options.manifest = tree.read start options.manifest :=
      (Files.read_of_sink handed held apart).trans held.symm
    have loadedToo : Manifest.load later start options.manifest = .ok manifest := by
      rw [Manifest.load, kept]
      exact loaded
    exact ⟨run_of_ends (.stored loadedToo made stores (Files.sink_of_sink handed)), kept⟩

/-- A run that overwrote its manifest fails when it is repeated. -/
theorem run_again_of_overwrites {manifest : Manifest}
    (succeeds : (options.run start tree).1.exitCode = 0)
    (loaded : Manifest.load tree start options.manifest = .ok manifest)
    (overwrites : Overwrites options manifest start (options.run start tree).2) :
    ∃ document : Document,
      (options.run start tree).2.read start options.manifest = .ok document.render.toUTF8 ∧
        options.run start (options.run start tree).2 =
          (.failure none (.manifest options.manifest), (options.run start tree).2) := by
  have ends := options.run_ends start tree
  generalize options.run start tree = ended at *
  obtain ⟨silent, ⟨occurrence, mem, enabled⟩, same⟩ := overwrites
  cases ends with
  | unusable | refused | unwritable => cases succeeds
  | nothing loadedToo nothing =>
    rw [loaded] at loadedToo
    cases loadedToo
    exact absurd (discover_eq_nil_iff.mp nothing occurrence mem) enabled
  | printed _ _ prints =>
    rw [silent] at prints
    cases prints
  | stored loadedToo made _ handed =>
    rw [loaded] at loadedToo
    cases loadedToo
    obtain ⟨requests, _, _, rfl⟩ := (Generator.generate_eq_some_iff _).mp made
    have held := (Files.read_eq_of_locate same).trans (Files.stored_of_sink handed).held
    exact ⟨_, held, run_of_ends (.unusable (unusable_of_document held))⟩

end Options

/-- A manifest that names itself as the file of its document: the run succeeds, and the manifest is gone.
When the run is repeated, it fails. -/
theorem manifest_overwritten :
    let text := "[generator]\nfile_name = \"StructArrays.toml\"\n[[struct_array]]\n" ++
      "name = \"A\"\nnamespace = \"m\"\nsize = 1\n"
    let tree := Tree.empty.put ["StructArrays.toml"] (.file text.toUTF8)
    let first := CommandLine.run none [] [] tree
    first.1 = .success "" ∧
      first.2.read [] "StructArrays.toml" ≠ tree.read [] "StructArrays.toml" ∧
      (CommandLine.run none [] [] first.2).1.exitCode = 1 := by
  intro text tree first
  let options : Options := ⟨"StructArrays.toml", none, none, false, 0⟩
  have accepted : CommandLine.parse none [] = .ok (.run options) := by decide +kernel
  have ran : first = options.run [] tree := run_of_parse accepted [] tree
  obtain ⟨succeeds, leads⟩ : first.1 = .success "" ∧
      ((Manifest.load tree [] "StructArrays.toml").toOption.map fun manifest =>
        (Files.join (options.destination manifest) (options.generator manifest).fileName,
          (discover .named manifest.occurrences).toOption.map List.length)) =
        some ("StructArrays.toml", some 1) := by
    decide +kernel
  obtain ⟨manifest, loaded, reads⟩ := Option.map_eq_some_iff.mp leads
  obtain ⟨joined, count⟩ := Prod.mk.inj reads
  have loaded : Manifest.load tree [] options.manifest = .ok manifest := eq_ok_of_toOption loaded
  have overwrites : Overwrites options manifest [] first.2 := by
    refine ⟨rfl, ?_, by rw [joined]⟩
    by_contra passed
    push Not at passed
    rw [discover_eq_nil_iff.mpr passed] at count
    cases count
  rw [ran] at succeeds overwrites ⊢
  have exits : (options.run [] tree).1.exitCode = 0 := congrArg Outcome.exitCode succeeds
  obtain ⟨document, held, failed⟩ := Options.run_again_of_overwrites exits loaded overwrites
  refine ⟨succeeds, ?_, ?_⟩
  · intro same
    have unloaded := load_eq_error_iff.mpr (unusable_of_document held)
    rw [Manifest.load, same] at unloaded
    cases loaded.symm.trans unloaded
  · rw [run_of_parse accepted, failed]
    rfl

/-- A command line that succeeded does the same when it is repeated in the files that it left: it succeeds
again, and changes nothing. Its manifest is as it was. The one exception is a document whose path leads
to the manifest itself: it is written in place of the manifest, and the command line fails when it is
repeated, without an effect on the files. -/
theorem regenerated_unless_overwritten {inherited : Option String} {arguments : List String}
    (succeeds : (CommandLine.run inherited arguments start tree).1.exitCode = 0) :
    let first := CommandLine.run inherited arguments start tree
    let again := CommandLine.run inherited arguments start first.2
    ((∀ options manifest, CommandLine.parse inherited arguments = .ok (.run options) →
        Manifest.load tree start options.manifest = .ok manifest →
        ¬ Overwrites options manifest start first.2) →
      again = first ∧ ∀ options, CommandLine.parse inherited arguments = .ok (.run options) →
        first.2.read start options.manifest = tree.read start options.manifest) ∧
    (∀ options manifest, CommandLine.parse inherited arguments = .ok (.run options) →
      Manifest.load tree start options.manifest = .ok manifest →
      Overwrites options manifest start first.2 →
      again.1.exitCode = 1 ∧ again.2 = first.2 ∧
        ∃ document : Document,
          first.2.read start options.manifest = .ok document.render.toUTF8) := by
  intro first again
  by_cases runs : ∃ options, CommandLine.parse inherited arguments = .ok (.run options)
  · obtain ⟨options, parsed⟩ := runs
    have ran (tree : Tree) : CommandLine.run inherited arguments start tree = options.run start tree :=
      run_of_parse parsed start tree
    have before : first = options.run start tree := ran tree
    have after : again = options.run start first.2 := ran first.2
    rw [ran] at succeeds
    rw [after, before, parsed]
    constructor
    · intro spared
      obtain ⟨same, kept⟩ := Options.run_again succeeds fun manifest => spared options manifest rfl
      refine ⟨same, ?_⟩
      intro other parsedToo
      cases parsedToo
      exact kept
    · intro other manifest parsedToo loaded overwrites
      cases parsedToo
      obtain ⟨document, held, failed⟩ := Options.run_again_of_overwrites succeeds loaded overwrites
      rw [failed]
      exact ⟨rfl, rfl, document, held⟩
  · have idle : first.2 = tree := files_of_not_run runs start tree
    have same : again = first := congrArg (CommandLine.run inherited arguments start) idle
    constructor
    · intro _
      exact ⟨same, fun options parsed => absurd ⟨options, parsed⟩ runs⟩
    · intro options _ parsed
      exact absurd ⟨options, parsed⟩ runs

/-- A manifest in a directory: the document is written beside it, and written again. -/
theorem regenerated_beside :
    let text := "[[struct_array]]\nname = \"A\"\nnamespace = \"m\"\nsize = 1\n"
    let tree := (Tree.empty.put ["d"] .directory).put ["d", "m.toml"] (.file text.toUTF8)
    let first := CommandLine.run none ["-j1", "d/m.toml"] [] tree
    first.1.exitCode = 0 ∧ CommandLine.run none ["-j1", "d/m.toml"] [] first.2 = first := by
  intro text tree first
  let options : Options := ⟨"d/m.toml", none, some 1, false, 0⟩
  have accepted : CommandLine.parse none ["-j1", "d/m.toml"] = .ok (.run options) := by
    decide +kernel
  have leads : ((Manifest.load tree [] "d/m.toml").toOption.map fun manifest =>
      Files.join (options.destination manifest) (options.generator manifest).fileName) =
        some "d/struct_array.g.rs" := by
    decide +kernel
  obtain ⟨succeeds, apart⟩ : first.1.exitCode = 0 ∧
      first.2.locate [] "d/m.toml" ≠ first.2.locate [] "d/struct_array.g.rs" := by
    decide +kernel
  refine ⟨succeeds, ((regenerated_unless_overwritten succeeds).1 ?_).1⟩
  intro other manifest parsed loaded overwrites
  rw [accepted] at parsed
  cases parsed
  have loaded : Manifest.load tree [] "d/m.toml" = .ok manifest := loaded
  rw [loaded] at leads
  have joined : Files.join (options.destination manifest) (options.generator manifest).fileName =
      "d/struct_array.g.rs" := Option.some.inj leads
  have same := overwrites.same
  rw [joined] at same
  exact apart same

end SlotArray
