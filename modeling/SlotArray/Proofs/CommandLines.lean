import SlotArray.Program
import SlotArray.Proofs.Accepted

/-! Command lines with one option more. An option may stand anywhere among the arguments, as long as
nothing before it ends the options or waits for a value: what is read then differs from what is read
without it in what the option says, and in nothing else. -/
namespace SlotArray.CommandLine

variable {seen other last : Seen} {pending : Option Flag} {flag : Flag} {argument value dir : String}
  {rest : List String}

/-! ## One argument -/

/-- What is known where reading goes on: what has been read, and the option that waits for its value. -/
abbrev Known := Seen × Option Flag

/-- What is known where nothing waits for a value. -/
def onward (taken : Except UsageError Seen) : Option Known :=
  taken.toOption.map fun seen => (seen, none)

/-- What is known behind an option with its value. -/
def knownValue (seen : Seen) (flag : Flag) (value : String) : Option Known :=
  onward (seen.setValue flag value)

/-- What is known behind an option without a value. -/
def knownFlag (seen : Seen) (flag : Flag) : Option Known :=
  match seen.setFlag flag with
  | .ok (.seen seen) => some (seen, none)
  | _ => none

/-- What is known behind an argument with a long option. -/
def knownLong (seen : Seen) (argument : String) : Option Known :=
  match Flag.ofLong? (splitLong argument).1, (splitLong argument).2 with
  | none, _ => none
  | some flag, some value => knownValue seen flag value
  | some flag, none => if flag.takesValue then some (seen, some flag) else knownFlag seen flag

/-- What is known behind an argument with short options. -/
def knownCluster (seen : Seen) (chars : List Char) : Option Known :=
  match readCluster seen chars with
  | .ok (.done (.seen seen)) => some (seen, none)
  | .ok (.needsValue seen flag) => some (seen, some flag)
  | _ => none

/-- What is known behind one argument, if reading goes on there with the next one. -/
def known (seen : Seen) (pending : Option Flag) (argument : String) : Option Known :=
  match pending with
  | some flag => if looksLikeOption argument then none else knownValue seen flag argument
  | none =>
    match argument.toList with
    | ['-', '-'] => none
    | '-' :: '-' :: _ => knownLong seen argument
    | '-' :: c :: cluster => knownCluster seen (c :: cluster)
    | _ => onward (seen.setManifest argument)

/-- Reading goes on with the next arguments. -/
def GoesOn (known? : Option Known) (rest : List String) (last : Seen) : Prop :=
  ∃ next waiting, known? = some (next, waiting) ∧ read next waiting rest = .ok (.seen last)

theorem goesOn_onward {taken : Except UsageError Seen} (found : (match taken with
    | .ok seen => read seen none rest
    | .error error => .error error) = .ok (.seen last)) : GoesOn (onward taken) rest last := by
  split at found
  · exact ⟨_, none, rfl, found⟩
  · cases found

theorem goesOn_flag (found : (match seen.setFlag flag with
    | .ok (.seen seen) => read seen none rest
    | outcome => outcome) = .ok (.seen last)) : GoesOn (knownFlag seen flag) rest last := by
  split at found
  · rename_i next set
    exact ⟨next, none, by rw [knownFlag, set], found⟩
  · rename_i ended
    exact absurd found (ended last)

theorem goesOn_long (found : (match Flag.ofLong? (splitLong argument).1, (splitLong argument).2 with
    | none, _ => Except.error (UsageError.unknownOption argument)
    | some flag, some value =>
      match seen.setValue flag value with
      | .ok seen => read seen none rest
      | .error error => .error error
    | some flag, none =>
      if flag.takesValue then read seen (some flag) rest
      else
        match seen.setFlag flag with
        | .ok (.seen seen) => read seen none rest
        | outcome => outcome) = .ok (.seen last)) : GoesOn (knownLong seen argument) rest last := by
  unfold knownLong
  split at found
  · cases found
  · exact goesOn_onward found
  · split at found
    · rename_i takes
      rw [if_pos takes]
      exact ⟨seen, _, rfl, found⟩
    · rename_i takesNone
      rw [if_neg takesNone]
      exact goesOn_flag found

theorem goesOn_cluster {chars : List Char} (found : (match readCluster seen chars with
    | .ok (.done (.seen seen)) => read seen none rest
    | .ok (.done outcome) => .ok outcome
    | .ok (.needsValue seen flag) => read seen (some flag) rest
    | .error error => .error error) = .ok (.seen last)) :
    GoesOn (knownCluster seen chars) rest last := by
  unfold knownCluster
  split at found
  · rename_i next done
    exact ⟨next, none, by rw [done], found⟩
  · rename_i ended _
    cases found
    exact absurd rfl (ended last)
  · rename_i next flag waits
    exact ⟨next, some flag, by rw [waits], found⟩
  · cases found

/-- Arguments are read to their end one by one, up to two dashes behind which there are no options. -/
theorem read_cons (found : read seen pending (argument :: rest) = .ok (.seen last)) :
    GoesOn (known seen pending argument) rest last ∨
      pending = none ∧ argument = "--" ∧ rest.foldlM Seen.setManifest seen = .ok last := by
  rw [read.eq_def] at found
  dsimp only at found
  cases pending with
  | some flag =>
    left
    dsimp only at found
    split at found
    · cases found
    · rename_i plain
      rw [known, if_neg plain]
      exact goesOn_onward found
  | none =>
    dsimp only at found
    split at found
    · rename_i dashes
      right
      have same : argument = "--" := String.toList_injective dashes
      cases folded : rest.foldlM Seen.setManifest seen with
      | error error =>
        rw [folded] at found
        cases found
      | ok manifest =>
        rw [folded] at found
        cases found
        exact ⟨rfl, same, rfl⟩
    · rename_i shape
      left
      have taken : known seen none argument = knownLong seen argument := by
        rw [known, shape]
        simp
      rw [taken]
      exact goesOn_long found
    · rename_i c cluster _ _ shape
      left
      have taken : known seen none argument = knownCluster seen (c :: cluster) := by
        rw [known, shape]
        simp
      rw [taken]
      exact goesOn_cluster found
    · rename_i notDashes notLong notShort
      left
      have taken : known seen none argument = onward (seen.setManifest argument) := by
        rw [known]
        split <;> simp_all
      rw [taken]
      exact goesOn_onward found

/-! ## Two readings side by side -/

theorem onward_eq_some_iff {taken : Except UsageError Seen} {waiting : Option Flag} :
    onward taken = some (other, waiting) ↔ taken = .ok other ∧ waiting = none := by
  cases taken with
  | error error => exact ⟨nofun, nofun⟩
  | ok next => simp [onward, Except.toOption, eq_comm]

theorem knownFlag_eq_some_iff {waiting : Option Flag} :
    knownFlag seen flag = some (other, waiting) ↔
      seen.setFlag flag = .ok (.seen other) ∧ waiting = none := by
  unfold knownFlag
  split
  · rename_i next set
    simp [set, eq_comm]
  · rename_i ended
    refine ⟨nofun, ?_⟩
    rintro ⟨set, _⟩
    exact absurd set (ended other)

private theorem knownCluster_value (seen : Seen) (flag : Flag) (value : String) :
    (match (seen.setValue flag value).map (Cluster.done ∘ Parsed.seen) with
      | .ok (.done (.seen seen)) => some (seen, none)
      | .ok (.needsValue seen flag) => some (seen, some flag)
      | _ => none) = knownValue seen flag value := by
  unfold knownValue
  cases seen.setValue flag value <;> rfl

theorem knownCluster_cons (seen : Seen) (c : Char) (cluster : List Char) :
    knownCluster seen (c :: cluster) =
      match Flag.ofShort? c with
      | none => none
      | some flag =>
        if flag.takesValue then
          match cluster with
          | [] => some (seen, some flag)
          | '=' :: value => knownValue seen flag (String.ofList value)
          | value => knownValue seen flag (String.ofList value)
        else (knownFlag seen flag).bind fun known => knownCluster known.1 cluster := by
  rw [knownCluster, readCluster]
  cases Flag.ofShort? c with
  | none => rfl
  | some flag =>
    by_cases takes : flag.takesValue = true
    · simp only [takes, ↓reduceIte]
      symm
      split
      · rfl
      · exact (knownCluster_value seen flag _).symm
      · refine (knownCluster_value seen flag _).symm.trans ?_
        split <;> simp_all
    · simp only [takes]
      unfold knownFlag
      cases seen.setFlag flag with
      | error error => rfl
      | ok outcome => cases outcome <;> rfl

/-- A relation between what two readings have seen that every argument keeps, if both can take it. -/
structure Parallel (R : Seen → Seen → Prop) : Prop where
  value : ∀ {seen other next further flag value}, R seen other →
    seen.setValue flag value = .ok next → other.setValue flag value = .ok further → R next further
  flag : ∀ {seen other next further flag}, R seen other →
    seen.setFlag flag = .ok (.seen next) → other.setFlag flag = .ok (.seen further) → R next further
  manifest : ∀ {seen other next further path}, R seen other →
    seen.setManifest path = .ok next → other.setManifest path = .ok further → R next further

variable {R : Seen → Seen → Prop}

/-- Two readings that stand at the same argument, with what they know there. -/
def Abreast (R : Seen → Seen → Prop) (known? further? : Option Known) : Prop :=
  ∀ next waiting further delayed, known? = some (next, waiting) → further? = some (further, delayed) →
    R next further ∧ waiting = delayed

theorem abreast_none (further? : Option Known) : Abreast R none further? := by
  intro next waiting further delayed taken
  cases taken

theorem abreast_some (related : R seen other) (waiting : Option Flag) :
    Abreast R (some (seen, waiting)) (some (other, waiting)) := by
  intro next waiting further delayed taken takenToo
  cases taken
  cases takenToo
  exact ⟨related, rfl⟩

theorem Parallel.knownValue (parallel : Parallel R) (related : R seen other) (flag : Flag)
    (value : String) : Abreast R (knownValue seen flag value) (knownValue other flag value) := by
  intro next waiting further delayed taken takenToo
  obtain ⟨set, rfl⟩ := onward_eq_some_iff.mp taken
  obtain ⟨setToo, rfl⟩ := onward_eq_some_iff.mp takenToo
  exact ⟨parallel.value related set setToo, rfl⟩

theorem Parallel.knownFlag (parallel : Parallel R) (related : R seen other) (flag : Flag) :
    Abreast R (knownFlag seen flag) (knownFlag other flag) := by
  intro next waiting further delayed taken takenToo
  obtain ⟨set, rfl⟩ := knownFlag_eq_some_iff.mp taken
  obtain ⟨setToo, rfl⟩ := knownFlag_eq_some_iff.mp takenToo
  exact ⟨parallel.flag related set setToo, rfl⟩

theorem Parallel.knownLong (parallel : Parallel R) (related : R seen other) (argument : String) :
    Abreast R (knownLong seen argument) (knownLong other argument) := by
  unfold CommandLine.knownLong
  split
  · exact abreast_none _
  · exact parallel.knownValue related _ _
  · split
    · exact abreast_some related _
    · exact parallel.knownFlag related _

theorem Parallel.knownCluster (parallel : Parallel R) (related : R seen other) (chars : List Char) :
    Abreast R (knownCluster seen chars) (knownCluster other chars) := by
  induction chars generalizing seen other with
  | nil => exact abreast_some related none
  | cons c cluster ih =>
    rw [knownCluster_cons, knownCluster_cons]
    split
    · exact abreast_none _
    · split
      · split
        · exact abreast_some related _
        · exact parallel.knownValue related _ _
        · exact parallel.knownValue related _ _
      · intro next waiting further delayed taken takenToo
        obtain ⟨⟨inner, _⟩, first, taken⟩ := Option.bind_eq_some_iff.mp taken
        obtain ⟨⟨innerToo, _⟩, firstToo, takenToo⟩ := Option.bind_eq_some_iff.mp takenToo
        exact ih (parallel.knownFlag related _ _ _ _ _ first firstToo).1 _ _ _ _ taken takenToo

theorem Parallel.known (parallel : Parallel R) (related : R seen other) (pending : Option Flag)
    (argument : String) : Abreast R (known seen pending argument) (known other pending argument) := by
  unfold CommandLine.known
  split
  · split
    · exact abreast_none _
    · exact parallel.knownValue related _ _
  · split
    · exact abreast_none _
    · exact parallel.knownLong related _
    · exact parallel.knownCluster related _
    · intro next waiting further delayed taken takenToo
      obtain ⟨set, rfl⟩ := onward_eq_some_iff.mp taken
      obtain ⟨setToo, rfl⟩ := onward_eq_some_iff.mp takenToo
      exact ⟨parallel.manifest related set setToo, rfl⟩

theorem Parallel.foldlM_setManifest (parallel : Parallel R) (related : R seen other)
    (paths : List String) {next further : Seen}
    (taken : paths.foldlM Seen.setManifest seen = .ok next)
    (takenToo : paths.foldlM Seen.setManifest other = .ok further) : R next further := by
  induction paths generalizing seen other with
  | nil =>
    cases taken
    cases takenToo
    exact related
  | cons path paths ih =>
    obtain ⟨inner, first, taken⟩ := bind_eq_ok_iff.mp taken
    obtain ⟨innerToo, firstToo, takenToo⟩ := bind_eq_ok_iff.mp takenToo
    exact ih (parallel.manifest related first firstToo) taken takenToo

/-- Two readings of the same arguments end in the relation in which they begin. -/
theorem Parallel.read (parallel : Parallel R) (related : R seen other) {further : Seen}
    (taken : read seen pending rest = .ok (.seen last))
    (takenToo : CommandLine.read other pending rest = .ok (.seen further)) : R last further := by
  induction rest generalizing seen other pending with
  | nil =>
    cases pending with
    | some flag => cases taken
    | none =>
      cases taken
      cases takenToo
      exact related
  | cons argument rest ih =>
    rcases read_cons taken with ⟨next, waiting, first, taken⟩ | ⟨rfl, rfl, named⟩
    · rcases read_cons takenToo with ⟨nextToo, delayed, firstToo, takenToo⟩ | ⟨rfl, rfl, _⟩
      · obtain ⟨related, rfl⟩ := parallel.known related pending argument _ _ _ _ first firstToo
        exact ih related taken takenToo
      · cases first
    · rcases read_cons takenToo with ⟨nextToo, delayed, firstToo, _⟩ | ⟨_, _, namedToo⟩
      · cases firstToo
      · exact parallel.foldlM_setManifest related rest named namedToo

/-! ## One option more -/

/-- Arguments that are one option, if need be with its value: they are no other option's value, and
behind them more has been seen. -/
structure IsOption (R : Seen → Seen → Prop) (given : List String) : Prop where
  free : ∀ seen flag rest last, read seen (some flag) (given ++ rest) ≠ .ok (.seen last)
  taken : ∀ seen rest last, read seen none (given ++ rest) = .ok (.seen last) →
    ∃ more, R seen more ∧ read more none rest = .ok (.seen last)

/-- With an option put between its arguments, a command line is read as without, but for what the
option says. -/
theorem read_insert (parallel : Parallel R) {given : List String} (isOption : IsOption R given)
    {before after : List String} (options : "--" ∉ before) {further : Seen}
    (without : read seen pending (before ++ after) = .ok (.seen last))
    (inserted : read seen pending (before ++ given ++ after) = .ok (.seen further)) : R last further := by
  induction before generalizing seen pending with
  | nil =>
    cases pending with
    | some flag => exact absurd inserted (isOption.free _ _ _ _)
    | none =>
      obtain ⟨more, related, inserted⟩ := isOption.taken _ _ _ inserted
      exact parallel.read related without inserted
  | cons argument before ih =>
    obtain ⟨notEnd, options⟩ := List.ne_and_not_mem_of_not_mem_cons options
    rcases read_cons without with ⟨next, waiting, first, without⟩ | ⟨_, rfl, _⟩
    · rcases read_cons inserted with ⟨nextToo, delayed, firstToo, inserted⟩ | ⟨_, rfl, _⟩
      · rw [first] at firstToo
        cases firstToo
        exact ih options without inserted
      · exact absurd rfl notEnd
    · exact absurd rfl notEnd

/-- What is seen once the document is to be printed. -/
def Prints (seen more : Seen) : Prop :=
  seen.toStdout = false ∧ more = { seen with toStdout := true }

/-- What is seen once the directory is named. -/
def Names (dir : String) (seen more : Seen) : Prop :=
  seen.outDir = none ∧ more = { seen with outDir := some dir }

theorem setValue_eq_ok_iff : seen.setValue flag value = .ok other ↔
    (flag = .outDir ∧ seen.outDir = none ∧ value ≠ "" ∧
        { seen with outDir := some value } = other) ∨
      flag = .jobs ∧ seen.jobs = none ∧
        ∃ jobs, readJobs value = some jobs ∧ { seen with jobs := some jobs } = other := by
  cases flag with
  | outDir =>
    cases absent : seen.outDir <;> by_cases empty : value = "" <;>
      simp [Seen.setValue, absent, empty]
  | jobs =>
    cases absent : seen.jobs <;> cases read : readJobs value <;>
      simp [Seen.setValue, absent, read]
  | _ => simp [Seen.setValue]

theorem setFlag_eq_seen_iff : seen.setFlag flag = .ok (.seen other) ↔
    (flag = .stdout ∧ seen.toStdout = false ∧ { seen with toStdout := true } = other) ∨
      flag = .verbose ∧ { seen with verbosity := seen.verbosity + 1 } = other := by
  cases flag with
  | stdout => cases silent : seen.toStdout <;> simp [Seen.setFlag, silent]
  | _ => simp [Seen.setFlag]

theorem setManifest_eq_ok_iff {path : String} : seen.setManifest path = .ok other ↔
    seen.manifest = none ∧ path ≠ "" ∧ { seen with manifest := some path } = other := by
  cases absent : seen.manifest <;> by_cases empty : path = "" <;>
    simp [Seen.setManifest, absent, empty]

theorem parallel_prints : Parallel Prints where
  value := by
    rintro seen _ next further flag value ⟨silent, rfl⟩ taken takenToo
    rcases setValue_eq_ok_iff.mp taken with ⟨rfl, _, _, rfl⟩ | ⟨rfl, _, jobs, read, rfl⟩
    · rcases setValue_eq_ok_iff.mp takenToo with ⟨_, _, _, rfl⟩ | ⟨same, _⟩
      · exact ⟨silent, rfl⟩
      · cases same
    · rcases setValue_eq_ok_iff.mp takenToo with ⟨same, _⟩ | ⟨_, _, jobsToo, readToo, rfl⟩
      · cases same
      · rw [read] at readToo
        cases readToo
        exact ⟨silent, rfl⟩
  flag := by
    rintro seen _ next further flag ⟨silent, rfl⟩ taken takenToo
    rcases setFlag_eq_seen_iff.mp takenToo with ⟨_, printed, _⟩ | ⟨rfl, rfl⟩
    · cases printed
    · rcases setFlag_eq_seen_iff.mp taken with ⟨same, _⟩ | ⟨_, rfl⟩
      · cases same
      · exact ⟨silent, rfl⟩
  manifest := by
    rintro seen _ next further path ⟨silent, rfl⟩ taken takenToo
    obtain ⟨_, _, rfl⟩ := setManifest_eq_ok_iff.mp taken
    obtain ⟨_, _, rfl⟩ := setManifest_eq_ok_iff.mp takenToo
    exact ⟨silent, rfl⟩

theorem parallel_names (dir : String) : Parallel (Names dir) where
  value := by
    rintro seen _ next further flag value ⟨absent, rfl⟩ taken takenToo
    rcases setValue_eq_ok_iff.mp takenToo with ⟨_, named, _⟩ | ⟨rfl, _, jobs, read, rfl⟩
    · cases named
    · rcases setValue_eq_ok_iff.mp taken with ⟨same, _⟩ | ⟨_, _, jobsToo, readToo, rfl⟩
      · cases same
      · rw [read] at readToo
        cases readToo
        exact ⟨absent, rfl⟩
  flag := by
    rintro seen _ next further flag ⟨absent, rfl⟩ taken takenToo
    rcases setFlag_eq_seen_iff.mp taken with ⟨rfl, _, rfl⟩ | ⟨rfl, rfl⟩
    · rcases setFlag_eq_seen_iff.mp takenToo with ⟨_, _, rfl⟩ | ⟨same, _⟩
      · exact ⟨absent, rfl⟩
      · cases same
    · rcases setFlag_eq_seen_iff.mp takenToo with ⟨same, _⟩ | ⟨_, rfl⟩
      · cases same
      · exact ⟨absent, rfl⟩
  manifest := by
    rintro seen _ next further path ⟨absent, rfl⟩ taken takenToo
    obtain ⟨_, _, rfl⟩ := setManifest_eq_ok_iff.mp taken
    obtain ⟨_, _, rfl⟩ := setManifest_eq_ok_iff.mp takenToo
    exact ⟨absent, rfl⟩

/-- The ways to name a directory on a command line. -/
inductive NamesDirectory (dir : String) : List String → Prop where
  | long : NamesDirectory dir ["--out-dir", dir]
  | longJoined : NamesDirectory dir ["--out-dir=" ++ dir]
  | short : NamesDirectory dir ["-o", dir]
  | shortEquals : NamesDirectory dir ["-o=" ++ dir]
  | shortJoined (notEmpty : dir ≠ "") (unequal : dir.toList.head? ≠ some '=') :
      NamesDirectory dir ["-o" ++ dir]

theorem looksLikeOption_iff : looksLikeOption argument = true ↔
    ∃ c rest, argument.toList = '-' :: c :: rest := by
  unfold looksLikeOption
  split
  · rename_i c rest shape
    exact ⟨fun _ => ⟨c, rest, shape⟩, fun _ => rfl⟩
  · rename_i other
    refine ⟨nofun, ?_⟩
    rintro ⟨c, rest, shape⟩
    exact (other c rest shape).elim

/-- What looks like an option is no value of one. -/
theorem read_pending_ne (looks : looksLikeOption argument = true) (rest : List String) :
    read seen (some flag) (argument :: rest) ≠ .ok (.seen last) := by
  intro taken
  rcases read_cons taken with ⟨next, waiting, first, _⟩ | ⟨waits, _⟩
  · rw [known, if_pos looks] at first
    cases first
  · cases waits

theorem isOption_stdout : IsOption Prints ["--stdout"] where
  free seen flag rest last := read_pending_ne (by decide) rest
  taken := by
    intro seen rest last taken
    rcases read_cons taken with ⟨next, waiting, first, taken⟩ | ⟨_, ends, _⟩
    · have long : known seen none "--stdout" = knownFlag seen .stdout := rfl
      rw [long] at first
      obtain ⟨set, rfl⟩ := knownFlag_eq_some_iff.mp first
      rcases setFlag_eq_seen_iff.mp set with ⟨_, silent, rfl⟩ | ⟨same, _⟩
      · exact ⟨_, ⟨silent, rfl⟩, taken⟩
      · cases same
    · exact absurd ends (by decide)

/-- An argument with the directory in it is an option by itself. -/
theorem isOption_joined (looks : looksLikeOption argument = true) (notEnd : argument ≠ "--")
    (takes : ∀ seen, known seen none argument = knownValue seen .outDir dir) :
    IsOption (Names dir) [argument] where
  free seen flag rest last := read_pending_ne looks rest
  taken := by
    intro seen rest last taken
    rcases read_cons taken with ⟨next, waiting, first, taken⟩ | ⟨_, ends, _⟩
    · rw [takes] at first
      obtain ⟨set, rfl⟩ := onward_eq_some_iff.mp first
      rcases setValue_eq_ok_iff.mp set with ⟨_, absent, _, rfl⟩ | ⟨same, _⟩
      · exact ⟨_, ⟨absent, rfl⟩, taken⟩
      · cases same
    · exact absurd ends notEnd

/-- An argument that asks for the directory makes an option with the next one. -/
theorem isOption_apart (looks : looksLikeOption argument = true) (notEnd : argument ≠ "--")
    (waits : ∀ seen, known seen none argument = some (seen, some .outDir)) :
    IsOption (Names dir) [argument, dir] where
  free seen flag rest last := read_pending_ne looks (dir :: rest)
  taken := by
    intro seen rest last taken
    rcases read_cons taken with ⟨next, waiting, first, taken⟩ | ⟨_, ends, _⟩
    · rw [waits] at first
      cases first
      rcases read_cons taken with ⟨next, waiting, second, taken⟩ | ⟨same, _⟩
      · rw [known] at second
        split at second
        · cases second
        · obtain ⟨set, rfl⟩ := onward_eq_some_iff.mp second
          rcases setValue_eq_ok_iff.mp set with ⟨_, absent, _, rfl⟩ | ⟨same, _⟩
          · exact ⟨_, ⟨absent, rfl⟩, taken⟩
          · cases same
      · cases same
    · exact absurd ends notEnd

theorem NamesDirectory.isOption {given : List String} (names : NamesDirectory dir given) :
    IsOption (Names dir) given := by
  cases names with
  | long => exact isOption_apart (by decide) (by decide) fun _ => rfl
  | short => exact isOption_apart (by decide) (by decide) fun _ => rfl
  | longJoined =>
    have shape : ("--out-dir=" ++ dir).toList = '-' :: '-' :: ("out-dir=".toList ++ dir.toList) :=
      String.toList_append
    refine isOption_joined (looksLikeOption_iff.mpr ⟨_, _, shape⟩) (fun same => ?_) fun seen => ?_
    · rw [same] at shape
      cases shape
    · have named : splitLong ("--out-dir=" ++ dir) = ("--out-dir", some dir) := by
        simp [splitLong, shape]
      have long : known seen none ("--out-dir=" ++ dir) = knownLong seen ("--out-dir=" ++ dir) := by
        rw [known, shape]
        simp
      rw [long, knownLong, named]
      rfl
  | shortEquals =>
    have shape : ("-o=" ++ dir).toList = '-' :: 'o' :: '=' :: dir.toList := String.toList_append
    refine isOption_joined (looksLikeOption_iff.mpr ⟨_, _, shape⟩) (fun same => ?_) fun seen => ?_
    · rw [same] at shape
      cases shape
    · have short : known seen none ("-o=" ++ dir) = knownCluster seen ('o' :: '=' :: dir.toList) := by
        rw [known, shape]
        simp
      rw [short, knownCluster_cons]
      simp only [Flag.ofShort?, Flag.takesValue, ↓reduceIte, String.ofList_toList]
  | shortJoined notEmpty unequal =>
    have shape : ("-o" ++ dir).toList = '-' :: 'o' :: dir.toList := String.toList_append
    refine isOption_joined (looksLikeOption_iff.mpr ⟨_, _, shape⟩) (fun same => ?_) fun seen => ?_
    · rw [same] at shape
      cases shape
    · have short : known seen none ("-o" ++ dir) = knownCluster seen ('o' :: dir.toList) := by
        rw [known, shape]
        simp
      rw [short, knownCluster_cons]
      simp only [Flag.ofShort?, Flag.takesValue, ↓reduceIte]
      split
      · rename_i empty
        exact absurd (String.toList_eq_nil_iff.mp empty) notEmpty
      · rename_i text equals
        rw [equals] at unequal
        exact absurd rfl unequal
      · rw [String.ofList_toList]

/-! ## Accepted command lines -/

/-- What is asked for once a command line has been read to its end. -/
def Seen.asked (seen : Seen) (outDir : Option String) : Options :=
  ⟨seen.manifest.getD defaultManifest, outDir, seen.jobs, seen.toStdout, seen.verbosity⟩

section Accepted
variable {inherited environment : Option String} {arguments before after given : List String}
  {options plain printing named : Options}

theorem parse_eq_run_iff : parse inherited arguments = .ok (.run options) ↔
    ∃ seen, read ⟨none, none, none, false, 0⟩ none arguments = .ok (.seen seen) ∧
      (seen.outDir <|> inherited) ≠ some "" ∧
      ¬ (seen.toStdout = true ∧ (seen.outDir <|> inherited).isSome = true) ∧
      seen.asked (seen.outDir <|> inherited) = options := by
  unfold parse
  cases read ⟨none, none, none, false, 0⟩ none arguments with
  | error error => simp
  | ok parsed =>
    cases parsed with
    | version => simp
    | help => simp
    | seen seen =>
      dsimp only
      simp only [Except.ok.injEq, Parsed.seen.injEq, exists_eq_left']
      generalize (seen.outDir <|> inherited) = outDir
      by_cases empty : outDir = some ""
      · simp [empty]
      · by_cases conflict : seen.toStdout = true ∧ outDir.isSome = true
        · simp [empty, conflict]
        · simp [empty, conflict, Seen.asked]

/-- With one more option that asks for printing, a command line asks for the same otherwise. It named no
directory, since the two do not go together. -/
theorem parse_insert_stdout (optional : "--" ∉ before)
    (without : parse inherited (before ++ after) = .ok (.run plain))
    (accepted : parse inherited (before ++ ["--stdout"] ++ after) = .ok (.run printing)) :
    plain.toStdout = false ∧ plain.outDir = none ∧ printing = { plain with toStdout := true } := by
  obtain ⟨seen, read, _, _, rfl⟩ := parse_eq_run_iff.mp without
  obtain ⟨more, readToo, _, alone, rfl⟩ := parse_eq_run_iff.mp accepted
  obtain ⟨silent, rfl⟩ := read_insert parallel_prints isOption_stdout optional read readToo
  refine ⟨silent, ?_, rfl⟩
  cases named : (seen.outDir <|> inherited) with
  | none => rfl
  | some dir => exact absurd ⟨rfl, by rw [named]; rfl⟩ alone

/-- The environment's directory counts where the command line names none. -/
theorem parse_environment {dir : String} (notEmpty : dir ≠ "") (silent : plain.toStdout = false)
    (absent : plain.outDir = none) (accepted : parse inherited arguments = .ok (.run plain)) :
    parse (some dir) arguments = .ok (.run { plain with outDir := some dir }) := by
  obtain ⟨seen, read, _, _, rfl⟩ := parse_eq_run_iff.mp accepted
  have absent : (seen.outDir <|> inherited) = none := absent
  have unnamed : seen.outDir = none := by
    cases unnamed : seen.outDir with
    | none => rfl
    | some other =>
      rw [unnamed] at absent
      cases absent
  have named : (seen.outDir <|> some dir) = some dir := by
    rw [unnamed]
    rfl
  refine parse_eq_run_iff.mpr ⟨seen, read, ?_, ?_, ?_⟩
  · rw [named]
    exact fun empty => notEmpty (Option.some.inj empty)
  · rintro ⟨prints, _⟩
    rw [show seen.toStdout = false from silent] at prints
    cases prints
  · rw [named]
    rfl

/-- A directory on the command line counts whatever the environment names. -/
theorem parse_insert_directory {dir : String} (names : NamesDirectory dir given)
    (optional : "--" ∉ before) (without : parse inherited (before ++ after) = .ok (.run plain))
    (accepted : parse environment (before ++ given ++ after) = .ok (.run named)) :
    named = { plain with outDir := some dir } := by
  obtain ⟨seen, read, _, _, rfl⟩ := parse_eq_run_iff.mp without
  obtain ⟨more, readToo, _, _, rfl⟩ := parse_eq_run_iff.mp accepted
  obtain ⟨_, rfl⟩ := read_insert (parallel_names dir) names.isOption optional read readToo
  rfl

end Accepted

end SlotArray.CommandLine
