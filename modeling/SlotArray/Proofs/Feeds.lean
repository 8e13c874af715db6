import SlotArray.Proofs.Failures

/-! A feed seen as a whole. Discovery walks over it with the requests found so far in hand, but what
it answers depends on positions alone: a feed is accepted when nothing is wrong at any of them, and
otherwise the first position with something wrong decides, whatever stands behind it. -/
namespace SlotArray

variable {shape : Shape} {feed other : List Occurrence} {occurrence : Occurrence}
  {requests accepted : List Request} {error : PassError} {i : Nat}

/-! ## What a feed asks for -/

/-- The place of the size among the arguments of a shape. -/
def Shape.sizeIndex : Shape → Nat
  | .named => 2
  | .inline => 0

/-- An occurrence that discovery passes over: it has no tag, or its tag has the arguments of the
shape with 0 for the size. The others of them may be anything. -/
inductive IsPassedOver (shape : Shape) (occurrence : Occurrence) : Prop where
  | untagged (bare : occurrence.tag? = none)
  | disabled {tag : Tag} (tagged : occurrence.tag? = some tag)
      (count : tag.arguments.length = shape.arity)
      (zero : tag.arguments[shape.sizeIndex]? = some (.integer 0))

/-- The request of an occurrence, if it can be read and asks for one. -/
def Occurrence.asked? (shape : Shape) (occurrence : Occurrence) : Option Request :=
  (occurrence.request? shape).toOption.join

/-- The requests of a feed in its order, whether or not discovery accepts them. -/
def asked (shape : Shape) (feed : List Occurrence) : List Request :=
  feed.filterMap (Occurrence.asked? shape)

theorem asked?_eq_some_iff {request : Request} :
    occurrence.asked? shape = some request ↔ occurrence.request? shape = .ok (some request) := by
  unfold Occurrence.asked?
  cases occurrence.request? shape with
  | error fault => simp [Except.toOption]
  | ok answer => simp [Except.toOption]

private theorem ofNat?_eq_none_iff {value : Int} (fits : 0 ≤ value ∧ value ≤ 255) :
    SlotCount.ofNat? value.toNat = none ↔ value = 0 := by
  unfold SlotCount.ofNat?
  split
  · simp
    omega
  · simp
    omega

/-- A size that is read as no number of slots is a 0. -/
private theorem readSize_eq_zero_iff (argument : Argument) (index : Nat) :
    (∃ size, argument.readSize index = .ok size ∧ SlotCount.ofNat? size = none) ↔
      argument = .integer 0 := by
  constructor
  · rintro ⟨size, read, none⟩
    unfold Argument.readSize at read
    split at read
    · split at read
      · rename_i value fits
        cases read
        rw [(ofNat?_eq_none_iff fits).mp none]
      · cases read
    · cases read
  · rintro rfl
    exact ⟨0, rfl, rfl⟩

/-- Whatever a shape makes of the other arguments, nothing comes of them exactly when the size is 0. -/
private theorem sized_eq_none_iff (argument : Argument) (index : Nat)
    (made : SlotCount → Except SchemaFault Request) :
    (do
      let size ← argument.readSize index
      match SlotCount.ofNat? size with
      | some size => some <$> made size
      | none => return none) = Except.ok none ↔ argument = .integer 0 := by
  rw [← readSize_eq_zero_iff argument index]
  constructor
  · intro nothing
    obtain ⟨size, read, nothing⟩ := bind_eq_ok_iff.mp nothing
    refine ⟨size, read, ?_⟩
    split at nothing
    · rename_i count _
      cases result : made count with
      | error fault => rw [result] at nothing; cases nothing
      | ok request => rw [result] at nothing; cases nothing
    · assumption
  · rintro ⟨size, read, none⟩
    apply bind_eq_ok_iff.mpr
    exact ⟨size, read, by rw [none]; rfl⟩

theorem tag_request?_eq_none_iff (tag : Tag) (declaration : String) :
    tag.request? shape declaration = .ok none ↔
      tag.arguments.length = shape.arity ∧
        tag.arguments[shape.sizeIndex]? = some (.integer 0) := by
  obtain ⟨path, arguments⟩ := tag
  cases shape with
  | named =>
    rcases arguments with _ | ⟨name, _ | ⟨home, _ | ⟨size, _ | ⟨extra, rest⟩⟩⟩⟩
    case cons.cons.cons.nil =>
      refine (sized_eq_none_iff size 2 (namedRequest name home)).trans ?_
      simp [Shape.arity, Shape.sizeIndex]
    all_goals simp [Tag.request?, Shape.arity]
  | inline =>
    rcases arguments with _ | ⟨size, _ | ⟨extra, rest⟩⟩
    case cons.nil =>
      refine (sized_eq_none_iff size 0 (inlineRequest declaration)).trans ?_
      simp [Shape.arity, Shape.sizeIndex]
    all_goals simp [Tag.request?, Shape.arity]

/-- Untagged occurrences and those with size 0 are all that ask for nothing without being faulty. -/
theorem request?_eq_none_iff :
    occurrence.request? shape = .ok none ↔ IsPassedOver shape occurrence := by
  unfold Occurrence.request?
  constructor
  · intro nothing
    split at nothing
    · rename_i bare
      exact .untagged bare
    · rename_i tag tagged
      obtain ⟨count, zero⟩ := (tag_request?_eq_none_iff tag _).mp (mapError_eq_ok_iff.mp nothing)
      exact .disabled tagged count zero
  · intro passed
    cases passed with
    | untagged bare => rw [bare]
    | disabled tagged count zero =>
      simp only [tagged, (tag_request?_eq_none_iff _ _).mpr ⟨count, zero⟩]
      rfl

example : (Occurrence.tagged "a" [.string "no name", .boolean true, .integer 0]).request? .named = .ok none := by
  decide +kernel

/-! ## Accepted feeds -/

/-- Every occurrence of a feed can be read. -/
def IsReadable (shape : Shape) (feed : List Occurrence) : Prop :=
  ∀ occurrence ∈ feed, ∃ answer, occurrence.request? shape = .ok answer

theorem isReadable_cons {rest : List Occurrence} : IsReadable shape (occurrence :: rest) ↔
    (∃ answer, occurrence.request? shape = .ok answer) ∧ IsReadable shape rest :=
  List.forall_mem_cons

/-- The walk from the requests `accepted` on succeeds when all that is left can be read and asks for
types that are new and differ. -/
private theorem go_eq_ok_iff (fresh : (accepted.map Request.key).Nodup) :
    discover.go shape accepted feed = .ok requests ↔ IsReadable shape feed ∧
      ((accepted.reverse ++ asked shape feed).map Request.key).Nodup ∧
        requests = accepted.reverse ++ asked shape feed := by
  induction feed generalizing accepted with
  | nil =>
    have kept : (accepted.reverse.map Request.key).Nodup := by
      rw [List.map_reverse]
      exact List.nodup_reverse.mpr fresh
    simp only [discover.go, asked, List.filterMap_nil, List.append_nil, Except.ok.injEq]
    constructor
    · rintro rfl
      exact ⟨List.forall_mem_nil _, kept, rfl⟩
    · rintro ⟨_, _, rfl⟩
      rfl
  | cons occurrence rest ih =>
    rw [isReadable_cons, discover.go]
    cases found : occurrence.request? shape with
    | error fault => simp
    | ok answer =>
      have readable : ∃ answer', Except.ok answer = (Except.ok answer' : Except SchemaError _) :=
        ⟨answer, rfl⟩
      cases answer with
      | none =>
        have nothing : asked shape (occurrence :: rest) = asked shape rest :=
          List.filterMap_cons_none (by simp [Occurrence.asked?, found, Except.toOption])
        simp only [nothing, readable, true_and]
        exact ih fresh
      | some request =>
        have first : asked shape (occurrence :: rest) = request :: asked shape rest :=
          List.filterMap_cons_some (asked?_eq_some_iff.mpr found)
        have moved : accepted.reverse ++ request :: asked shape rest =
            (request :: accepted).reverse ++ asked shape rest := by simp
        simp only [first, moved, readable, true_and]
        by_cases taken : accepted.any request.collides = true
        · rw [if_pos taken]
          constructor
          · intro failed
            cases failed
          · rintro ⟨_, distinct, _⟩
            obtain ⟨earlier, known, collides⟩ := List.any_eq_true.mp taken
            have same := (Request.collides_iff _ _).mp collides
            rw [List.map_append, List.nodup_append] at distinct
            have clash := distinct.1
            rw [List.map_reverse, List.nodup_reverse, List.map_cons, List.nodup_cons] at clash
            exact absurd (List.mem_map.mpr ⟨earlier, known, same.symm⟩) clash.1
        · rw [if_neg taken]
          apply ih
          rw [List.map_cons, List.nodup_cons]
          refine ⟨?_, fresh⟩
          intro mem
          obtain ⟨earlier, known, same⟩ := List.mem_map.mp mem
          apply taken
          exact List.any_eq_true.mpr ⟨earlier, known, (Request.collides_iff _ _).mpr same.symm⟩

/-- A feed is accepted exactly if each of its occurrences can be read and no two of them ask for one
name in one module; what comes out is all they ask for, in their order. -/
theorem discover_eq_ok_iff : discover shape feed = .ok requests ↔
    IsReadable shape feed ∧ ((asked shape feed).map Request.key).Nodup ∧ requests = asked shape feed :=
  go_eq_ok_iff List.nodup_nil

/-! ## Positions -/

/-- Something is wrong at a position of a feed: the occurrence there is faulty, or asks for a name and
a module that one before it asks for. -/
inductive TroubleAt (shape : Shape) (feed : List Occurrence) (i : Nat) : PassError → Prop where
  | faulty {occurrence : Occurrence} {tag : Tag} {fault : SchemaFault}
      (here : feed[i]? = some occurrence) (tagged : occurrence.tag? = some tag)
      (found : tag.request? shape occurrence.declaration = .error fault) :
      TroubleAt shape feed i (.schema ⟨occurrence.declaration, tag.path, fault⟩)
  | repeated {occurrence earlier : Occurrence} {request first : Request} {j : Nat}
      (here : feed[i]? = some occurrence) (asks : occurrence.request? shape = .ok (some request))
      (before : j < i) (there : feed[j]? = some earlier)
      (asked : earlier.request? shape = .ok (some first))
      (home : first.home = request.home) (name : first.name = request.name) :
      TroubleAt shape feed i (.duplicateType request.qualifiedName)

/-- The first position with something wrong, and what that is. -/
def IsFirstTrouble (shape : Shape) (feed : List Occurrence) (i : Nat) (error : PassError) : Prop :=
  TroubleAt shape feed i error ∧ ∀ j < i, ∀ other, ¬ TroubleAt shape feed j other

/-- What is wrong at a position can be told from what stands up to there. -/
theorem TroubleAt.congr (trouble : TroubleAt shape feed i error)
    (same : ∀ j ≤ i, feed[j]? = other[j]?) : TroubleAt shape other i error := by
  cases trouble with
  | faulty here tagged found =>
    rw [same i (Nat.le_refl i)] at here
    exact .faulty here tagged found
  | repeated here asks before there asked home name =>
    rw [same i (Nat.le_refl i)] at here
    rw [same _ (Nat.le_of_lt before)] at there
    exact .repeated here asks before there asked home name

theorem IsFirstTrouble.congr (first : IsFirstTrouble shape feed i error)
    (same : feed.take (i + 1) = other.take (i + 1)) : IsFirstTrouble shape other i error := by
  have upTo : ∀ j ≤ i, feed[j]? = other[j]? := by
    intro j within
    have there := congrArg (·[j]?) same
    simpa [List.getElem?_take, Nat.lt_succ_of_le within] using there
  obtain ⟨trouble, untroubled⟩ := first
  refine ⟨trouble.congr upTo, ?_⟩
  intro j before error troubleOther
  apply untroubled j before error
  exact troubleOther.congr fun k within => (upTo k (by omega)).symm

/-- An occurrence that cannot be read has a tag, and its fault names both. -/
theorem request?_eq_error_iff {fault : SchemaError} :
    occurrence.request? shape = .error fault ↔ ∃ tag cause, occurrence.tag? = some tag ∧
      tag.request? shape occurrence.declaration = .error cause ∧
        fault = ⟨occurrence.declaration, tag.path, cause⟩ := by
  unfold Occurrence.request?
  cases occurrence.tag? with
  | none => simp
  | some tag =>
    rw [mapError_eq_error_iff]
    constructor
    · rintro ⟨cause, read, rfl⟩
      exact ⟨tag, cause, rfl, read, rfl⟩
    · rintro ⟨_, cause, same, read, rfl⟩
      cases same
      exact ⟨cause, read, rfl⟩

/-- The requests of a feed have different names and modules when no two positions ask for the same. -/
theorem nodup_key_iff : ((asked shape feed).map Request.key).Nodup ↔
    ∀ (i j : Nat) (earlier later : Occurrence) (first second : Request), j < i →
      feed[j]? = some earlier → feed[i]? = some later →
      earlier.request? shape = .ok (some first) → later.request? shape = .ok (some second) →
        first.key ≠ second.key := by
  rw [List.Nodup, List.pairwise_map, asked, List.pairwise_filterMap, List.pairwise_iff_getElem]
  simp only [asked?_eq_some_iff]
  constructor
  · intro apart i j earlier later first second before there here askedFirst asksSecond
    obtain ⟨boundJ, rfl⟩ := List.getElem?_eq_some_iff.mp there
    obtain ⟨boundI, rfl⟩ := List.getElem?_eq_some_iff.mp here
    exact apart j i boundJ boundI before first askedFirst second asksSecond
  · intro apart j i boundJ boundI before first askedFirst second asksSecond
    exact apart i j _ _ first second before (List.getElem?_eq_getElem boundJ)
      (List.getElem?_eq_getElem boundI) askedFirst asksSecond

/-- A feed is accepted when nothing is wrong at any of its positions. -/
theorem untroubled_iff : (∀ i error, ¬ TroubleAt shape feed i error) ↔
    discover shape feed = .ok (asked shape feed) := by
  rw [discover_eq_ok_iff, and_iff_left rfl, nodup_key_iff]
  constructor
  · intro untroubled
    constructor
    · intro occurrence mem
      obtain ⟨i, here⟩ := List.mem_iff_getElem?.mp mem
      cases found : occurrence.request? shape with
      | ok answer => exact ⟨answer, rfl⟩
      | error fault =>
        obtain ⟨tag, cause, tagged, failed, _⟩ := request?_eq_error_iff.mp found
        exact absurd (.faulty here tagged failed) (untroubled i _)
    · intro i j earlier later first second before there here askedFirst asksSecond same
      apply untroubled i
      exact .repeated here asksSecond before there askedFirst (Prod.mk.inj same).1 (Prod.mk.inj same).2
  · rintro ⟨readable, apart⟩ i error trouble
    cases trouble with
    | @faulty occurrence tag fault here tagged found =>
      obtain ⟨answer, read⟩ := readable occurrence (List.mem_of_getElem? here)
      rw [request?_eq_error_iff.mpr ⟨tag, fault, tagged, found, rfl⟩] at read
      cases read
    | @repeated occurrence earlier request first j here asks before there asked home name =>
      apply apart i j earlier occurrence first request before there here asked asks
      exact Prod.ext home name

/-- One thing at most is wrong at a position. -/
theorem TroubleAt.unique {otherError : PassError} (trouble : TroubleAt shape feed i error)
    (again : TroubleAt shape feed i otherError) : error = otherError := by
  cases trouble with
  | faulty here tagged found =>
    have failed := request?_eq_error_iff.mpr ⟨_, _, tagged, found, rfl⟩
    cases again with
    | faulty hereToo taggedToo foundToo =>
      obtain rfl := Option.some.inj (here.symm.trans hereToo)
      obtain rfl := Option.some.inj (tagged.symm.trans taggedToo)
      rw [found] at foundToo
      cases foundToo
      rfl
    | repeated hereToo asks =>
      obtain rfl := Option.some.inj (here.symm.trans hereToo)
      rw [asks] at failed
      cases failed
  | repeated here asks =>
    cases again with
    | faulty hereToo taggedToo foundToo =>
      obtain rfl := Option.some.inj (here.symm.trans hereToo)
      rw [request?_eq_error_iff.mpr ⟨_, _, taggedToo, foundToo, rfl⟩] at asks
      cases asks
    | repeated hereToo asksToo =>
      obtain rfl := Option.some.inj (here.symm.trans hereToo)
      rw [asks] at asksToo
      cases asksToo
      rfl

theorem IsFirstTrouble.unique {otherError : PassError} {j : Nat}
    (first : IsFirstTrouble shape feed i error) (again : IsFirstTrouble shape feed j otherError) :
    error = otherError := by
  obtain ⟨trouble, untroubled⟩ := first
  obtain ⟨troubleToo, untroubledToo⟩ := again
  rcases Nat.lt_trichotomy i j with before | rfl | behind
  · exact absurd trouble (untroubledToo i before error)
  · exact trouble.unique troubleToo
  · exact absurd troubleToo (untroubled j behind otherError)

private theorem exists_first_of_discover (failed : discover shape feed = .error error) :
    ∃ i, IsFirstTrouble shape feed i error := by
  obtain ⟨before, occurrence, after, requests, rfl, fine, wrong⟩ := discover_eq_error_iff.mp failed
  obtain ⟨readable, distinct, rfl⟩ := discover_eq_ok_iff.mp fine
  have here : (before ++ occurrence :: after)[before.length]? = some occurrence := by simp
  refine ⟨before.length, ?_, ?_⟩
  · cases wrong with
    | faulty found =>
      obtain ⟨tag, cause, tagged, read, rfl⟩ := request?_eq_error_iff.mp found
      exact .faulty here tagged read
    | repeated asks known same =>
      obtain ⟨earlier, mem, asked⟩ := List.mem_filterMap.mp known
      obtain ⟨j, there⟩ := List.mem_iff_getElem?.mp mem
      obtain ⟨bound, _⟩ := List.getElem?_eq_some_iff.mp there
      rw [← List.getElem?_append_left bound] at there
      exact .repeated here asks bound there (asked?_eq_some_iff.mp asked) (Prod.mk.inj same).1
        (Prod.mk.inj same).2
  · intro j within error trouble
    have troubleBefore : TroubleAt shape before j error := by
      apply trouble.congr
      intro k upTo
      exact List.getElem?_append_left (by omega)
    exact untroubled_iff.mpr fine j error troubleBefore

/-- Discovery fails with what is wrong at the first position with something wrong. -/
theorem discover_eq_error_iff_first :
    discover shape feed = .error error ↔ ∃ i, IsFirstTrouble shape feed i error := by
  constructor
  · exact exists_first_of_discover
  · rintro ⟨i, first⟩
    cases outcome : discover shape feed with
    | ok requests =>
      obtain ⟨_, _, rfl⟩ := discover_eq_ok_iff.mp outcome
      exact absurd first.1 (untroubled_iff.mpr outcome i error)
    | error other =>
      obtain ⟨j, firstOther⟩ := exists_first_of_discover outcome
      rw [first.unique firstOther]

/-- Discovery follows its feed. It accepts when every occurrence can be read and the names asked for
differ within each module, and answers all that is asked for in the order of the feed, where only
untagged occurrences and those with size 0 ask for nothing. Otherwise it fails with what is wrong at
the first position with something wrong: whatever is put behind a feed that fails, or in place of
what stands behind that position, the error stays. -/
theorem discover_follows_feed (shape : Shape) (feed : List Occurrence) :
    (∀ requests, discover shape feed = .ok requests ↔ IsReadable shape feed ∧
      ((asked shape feed).map Request.key).Nodup ∧ requests = asked shape feed) ∧
    (∀ occurrence, occurrence.request? shape = .ok none ↔ IsPassedOver shape occurrence) ∧
    (∀ error, discover shape feed = .error error ↔ ∃ i, IsFirstTrouble shape feed i error) ∧
    (∀ error more, discover shape feed = .error error →
      discover shape (feed ++ more) = .error error) ∧
    ∀ error i other, IsFirstTrouble shape feed i error →
      feed.take (i + 1) = other.take (i + 1) → discover shape other = .error error := by
  refine ⟨fun _ => discover_eq_ok_iff, fun _ => request?_eq_none_iff,
    fun _ => discover_eq_error_iff_first, ?_, ?_⟩
  · intro error more failed
    have walked : discover.go shape [] feed = .error error := failed
    rw [discover, discover_go_append, walked]
    rfl
  · intro error i other first same
    apply discover_eq_error_iff_first.mpr
    exact ⟨i, first.congr same⟩

/-- A container, and one whose size does not fit: whatever is put behind them, the size is the error. -/
theorem discover_follows_feed_oversized :
    ∃ feed error, discover .named feed = .error error ∧
      ∀ more, discover .named (feed ++ more) = .error error := by
  let feed : List Occurrence :=
    [⟨"a", [⟨"struct_array", [.string "Pair", .string "m", .integer 2]⟩]⟩,
      ⟨"b", [⟨"struct_array", [.string "Plot", .string "m", .integer 300]⟩]⟩]
  have failed : discover .named feed =
      .error (.schema ⟨"b", "struct_array", .sizeOutOfRange 300⟩) := by decide +kernel
  obtain ⟨_, _, _, stays, _⟩ := discover_follows_feed .named feed
  exact ⟨feed, _, failed, fun more => stays _ more failed⟩

end SlotArray
