import SlotArray.Source.Phrase
import SlotArray.Proofs.Written.Invisible

/-! What is written of the trees between two places of a source. It is settled by itself. In front of what
is ahead at the second place, its operators end where they did; behind what is in front of the first one,
they go on where they did, unless something of the source was left out. -/
namespace SlotArray.Source
open TokenTree

/-! ## Trees by themselves -/

/-- Trees whose tokens are read again as they are written. -/
def Sound (trees : List TokenTree) : Prop := Settled (flatten trees)

namespace Sound
variable {trees more : List TokenTree} {leaf : Leaf} {span : Span}

theorem nil : Sound [] := Settled.nil

theorem append (sound : Sound trees) (soundMore : Sound more) : Sound (trees ++ more) := by
  rw [Sound, flatten_append]
  exact Settled.append sound soundMore

theorem single (fits : Fits (.leaf leaf) []) : Sound [.leaf leaf span] := Settled.cons fits .nil

theorem group (delimiter : Delimiter) (sound : Sound trees) : Sound [.group delimiter trees span] :=
  .cons .opening (((Settled.append sound (.cons .closing .nil))).append .nil)

theorem invisible (sound : Sound trees) : Sound [.invisible trees span] := by
  have same : Loosened (flatten trees) (flatten trees) := List.forall₂_same.mpr fun token _ => .refl token
  exact (((same.ended (Settled.closed sound)).settled_iff).mpr sound).append .nil

end Sound

/-- Trees that are written as they are read, whatever stands behind them. In a source that is not calm,
operators in them may be joined otherwise. -/
structure Exact (calm : Prop) (trees : List TokenTree) : Prop where
  sound : Sound trees
  tied : calm → Tied false (flatten trees)

namespace Exact
variable {calm : Prop} {trees more : List TokenTree} {leaf : Leaf} {span : Span}

theorem nil : Exact calm [] := ⟨.nil, fun _ => .nil⟩

theorem append (exact : Exact calm trees) (exactMore : Exact calm more) : Exact calm (trees ++ more) := by
  refine ⟨exact.sound.append exactMore.sound, fun isCalm => ?_⟩
  rw [flatten_append]
  exact Tied.append_iff.mpr ⟨(exact.tied isCalm).of_apart, exactMore.tied isCalm⟩

theorem single (fits : Fits (.leaf leaf) []) (apart : (Token.leaf leaf).joins = false) :
    Exact calm [.leaf leaf span] :=
  ⟨.single fits, fun _ => .cons apart .nil⟩

theorem group (delimiter : Delimiter) (exact : Exact calm trees) : Exact calm [.group delimiter trees span] := by
  refine ⟨.group delimiter exact.sound, fun isCalm => .cons rfl (Tied.append_iff.mpr ⟨?_, .nil⟩)⟩
  exact Tied.append_iff.mpr ⟨(exact.tied isCalm).of_apart, .cons rfl .nil⟩

/-- What is written is read as it was joined. -/
theorem rejoined_eq (exact : Exact calm trees) (isCalm : calm) :
    Token.rejoined false (flatten trees) = flatten trees :=
  (exact.tied isCalm).rejoined_eq exact.sound

end Exact

/-! ## Between two places -/

/-- What is known of the trees that a reader reads from. -/
structure Setting where
  /-- Whether nothing of the source is left out behind something that it may belong to. -/
  calm : Prop
  /-- Whether an operator stands behind the end of the trees. -/
  operator : Bool

namespace Setting

/-- Whether an operator is ahead. -/
def ahead (setting : Setting) (trees : List TokenTree) : Bool := Token.leads setting.operator (stream trees)

/-- What a reader sees is what was ahead. -/
theorem ahead_seen (setting : Setting) (trees : List TokenTree) : setting.ahead (seen trees) = setting.ahead trees := by
  rw [ahead, (reaches_seen trees).2, ahead]

/-- What is known of the content of a group in brackets. -/
def inside (setting : Setting) : Setting := ⟨setting.calm, false⟩

/-- What is known of the content of an invisible group in front of some trees. -/
def before (setting : Setting) (rest : List TokenTree) : Setting := ⟨setting.calm, setting.ahead rest⟩

end Setting

/-- What may be written in front of what is ahead. -/
structure Precedes (setting : Setting) (trees there : List TokenTree) : Prop where
  sound : Sound trees
  tied : setting.calm → Tied (setting.ahead there) (flatten trees)

/-- What may be written for what stands between two places, whatever is written in front of it. -/
structure Written (setting : Setting) (here trees there : List TokenTree) : Prop extends
    Precedes setting trees there where
  leads : setting.calm → setting.ahead here = true → Token.leads (setting.ahead there) (flatten trees) = true

/-- What may be written for what begins at a place, whatever is written on either side of it. -/
structure Solid (setting : Setting) (here trees : List TokenTree) : Prop extends
    Exact setting.calm trees where
  leads : setting.calm → setting.ahead here = true → Token.leads false (flatten trees) = true

section Between
variable {setting : Setting} {here between there trees more : List TokenTree}

/-- Where no operator is ahead, it does not matter what is written. -/
theorem Exact.solid (exact : Exact setting.calm trees) (noOperator : setting.ahead here = false) :
    Solid setting here trees :=
  ⟨exact, fun _ leads => by rw [noOperator] at leads; cases leads⟩

theorem Exact.precedes (exact : Exact setting.calm trees) : Precedes setting trees there :=
  ⟨exact.sound, fun isCalm => (exact.tied isCalm).of_apart⟩

/-- What is exact may be written in front of anything else. -/
theorem Exact.append_precedes (exact : Exact setting.calm trees) (precedes : Precedes setting more there) :
    Precedes setting (trees ++ more) there := by
  refine ⟨exact.sound.append precedes.sound, fun isCalm => ?_⟩
  rw [flatten_append]
  exact Tied.append_iff.mpr ⟨(exact.tied isCalm).of_apart, precedes.tied isCalm⟩

/-- In front of what is no operator, operators end. -/
theorem Precedes.exact (precedes : Precedes setting trees there) (nothing : setting.ahead there = false) :
    Exact setting.calm trees := by
  refine ⟨precedes.sound, fun isCalm => ?_⟩
  rw [← nothing]
  exact precedes.tied isCalm

/-- At the end of trees that no operator stands behind, nothing is ahead. -/
theorem Precedes.toEnd (precedes : Precedes setting trees there) (apart : setting.operator = false)
    (nothing : stream there = []) : Exact setting.calm trees := by
  refine precedes.exact ?_
  rw [Setting.ahead, nothing, apart]
  rfl

theorem Precedes.append (precedes : Precedes setting trees between) (written : Written setting between more there) :
    Precedes setting (trees ++ more) there := by
  refine ⟨precedes.sound.append written.sound, fun isCalm => ?_⟩
  rw [flatten_append]
  exact Tied.append_iff.mpr ⟨(precedes.tied isCalm).mono (written.leads isCalm), written.tied isCalm⟩

/-- In front of what may stand behind anything, operators end where they did. -/
theorem Precedes.append_solid (precedes : Precedes setting trees between) (solid : Solid setting between more) :
    Exact setting.calm (trees ++ more) := by
  refine ⟨precedes.sound.append solid.sound, fun isCalm => ?_⟩
  rw [flatten_append]
  exact Tied.append_iff.mpr ⟨(precedes.tied isCalm).mono (solid.leads isCalm), solid.tied isCalm⟩

namespace Written

theorem nil : Written setting here [] here := ⟨⟨.nil, fun _ => .nil⟩, fun _ leads => leads⟩

theorem append (written : Written setting here trees between) (further : Written setting between more there) :
    Written setting here (trees ++ more) there := by
  refine ⟨written.toPrecedes.append further, fun isCalm leads => ?_⟩
  rw [flatten_append, Token.leads_append]
  exact Token.leads_mono (further.leads isCalm) _ (written.leads isCalm leads)

/-- What begins with no operator may be left out. -/
theorem skip (noOperator : setting.ahead here = false) : Written setting here [] there :=
  ⟨Exact.nil.precedes, fun _ leads => by rw [noOperator] at leads; cases leads⟩

theorem skipped (written : Written setting here trees there) (empty : trees.isEmpty = true) :
    Written setting here [] there := by
  rwa [List.isEmpty_iff.mp empty] at written

theorem append_solid (written : Written setting here trees between) (solid : Solid setting between more) :
    Solid setting here (trees ++ more) := by
  refine ⟨written.toPrecedes.append_solid solid, fun isCalm leads => ?_⟩
  rw [flatten_append, Token.leads_append]
  exact Token.leads_mono (solid.leads isCalm) _ (written.leads isCalm leads)

end Written

namespace Solid

theorem written (solid : Solid setting here trees) : Written setting here trees there :=
  ⟨solid.toExact.precedes, fun isCalm leads =>
    Token.leads_mono (fun never => absurd never Bool.false_ne_true) _ (solid.leads isCalm leads)⟩

/-- Something may be left out behind what is solid. -/
theorem append_precedes (solid : Solid setting here trees) (precedes : Precedes setting more there) :
    Written setting here (trees ++ more) there := by
  refine ⟨solid.toExact.append_precedes precedes, fun isCalm leads => ?_⟩
  rw [flatten_append, Token.leads_append]
  exact Token.leads_mono (fun never => absurd never Bool.false_ne_true) _ (solid.leads isCalm leads)

theorem append_exact (solid : Solid setting here trees) (exact : Exact setting.calm more) :
    Solid setting here (trees ++ more) := by
  refine ⟨solid.toExact.append exact, fun isCalm leads => ?_⟩
  rw [flatten_append, Token.leads_append]
  exact Token.leads_mono (fun never => absurd never Bool.false_ne_true) _ (solid.leads isCalm leads)

end Solid

/-- What is ahead of an invisible group is ahead of its content. -/
theorem Setting.ahead_invisible (setting : Setting) (content rest : List TokenTree) (span : Span) :
    setting.ahead (.invisible content span :: rest) = (setting.before rest).ahead content :=
  Token.leads_append _ _ _

/-- What is written of the content of an invisible group may be written for the group. -/
theorem Written.outside {rest content left : List TokenTree} {span : Span}
    (written : Written (setting.before rest) content trees left) (nothing : stream left = []) :
    Written setting (.invisible content span :: rest) trees rest := by
  have ends : (setting.before rest).ahead left = setting.ahead rest := by
    rw [Setting.ahead, nothing]
    rfl
  obtain ⟨⟨sound, tied⟩, leads⟩ := written
  rw [ends] at tied leads
  rw [← setting.ahead_invisible content rest span] at leads
  exact ⟨⟨sound, tied⟩, leads⟩

theorem Solid.outside {rest content : List TokenTree} {span : Span} (solid : Solid (setting.before rest) content trees) :
    Solid setting (.invisible content span :: rest) trees := by
  obtain ⟨exact, leads⟩ := solid
  rw [← setting.ahead_invisible content rest span] at leads
  exact ⟨exact, leads⟩

/-- It may stay in a group. -/
theorem Written.invisible {span : Span} (written : Written setting here trees there) :
    Written setting here [.invisible trees span] there := by
  have own : flatten [.invisible trees span] = Token.ended (flatten trees) := List.append_nil _
  have same : Loosened (flatten trees) (flatten trees) := List.forall₂_same.mpr fun token _ => .refl token
  refine ⟨⟨.invisible written.sound, fun isCalm => ?_⟩, fun isCalm leads => ?_⟩
  · rw [own]
    exact (written.tied isCalm).ended.of_apart
  · rw [own, (same.ended (Settled.closed written.sound)).leads]
    exact written.leads isCalm leads

/-- In front of an operator, operators may end in any way. -/
theorem Precedes.append_operator (precedes : Precedes setting trees there) (exact : Exact setting.calm more)
    (operator : Token.leads false (flatten more) = true) : Exact setting.calm (trees ++ more) := by
  refine ⟨precedes.sound.append exact.sound, fun isCalm => ?_⟩
  rw [flatten_append]
  exact Tied.append_iff.mpr ⟨(precedes.tied isCalm).mono fun _ => operator, exact.tied isCalm⟩

end Between

/-! ### Lists -/

/-- Things between two places, each but perhaps the last with a separator behind it. -/
inductive Listed {α : Type} (setting : Setting) (write : α → List TokenTree) :
    List TokenTree → List (α × List TokenTree) → List TokenTree → Prop where
  | nil (here : List TokenTree) : Listed setting write here [] here
  | last {here there : List TokenTree} {item : α} (written : Written setting here (write item) there) :
      Listed setting write here [(item, [])] there
  | cons {here between beyond there : List TokenTree} {item : α} {separator : List TokenTree}
      {items : List (α × List TokenTree)} (written : Written setting here (write item) between)
      (solid : Solid setting between separator)
      (listed : Listed setting write beyond items there) : Listed setting write here ((item, separator) :: items) there

namespace Listed
variable {α β : Type} {setting : Setting} {write : α → List TokenTree} {here there : List TokenTree}
  {items : List (α × List TokenTree)}

/-- Things may be called otherwise. -/
theorem map (writeTo : β → List TokenTree) (name : α → β) (same : ∀ item, writeTo (name item) = write item)
    (listed : Listed setting write here items there) :
    Listed setting writeTo here (items.map fun item => (name item.1, item.2)) there := by
  induction listed with
  | nil here => exact .nil here
  | last written => exact .last (by rwa [same])
  | cons written solid _ ih => exact .cons (by rwa [same]) solid ih

/-- All of them may be written as they are. -/
theorem written (listed : Listed setting write here items there) :
    Written setting here (Phrase.flat (items.map fun item => (write item.1, item.2))) there := by
  induction listed with
  | nil here => exact .nil
  | @last here there item written =>
    have same : Phrase.flat [(write item, [])] = write item := by simp [Phrase.flat]
    rw [List.map_singleton, same]
    exact written
  | cons written solid _ ih => exact (written.append_solid solid).append_precedes ih.toPrecedes

/-- So may phrases. -/
theorem flat {phrases : List (List TokenTree × List TokenTree)} (listed : Listed setting id here phrases there) :
    Written setting here (Phrase.flat phrases) there := by
  have written := listed.written
  rwa [show (phrases.map fun item => (id item.1, item.2)) = phrases from List.map_id phrases] at written

/-- Some of them may be written without the others. -/
theorem precedes_filter (listed : Listed setting write here items there) (test : α × List TokenTree → Bool) :
    Precedes setting (Phrase.flat ((items.filter test).map fun item => (write item.1, item.2))) there := by
  induction listed with
  | nil here => exact Exact.nil.precedes
  | @last here there item written =>
    cases passes : test (item, []) with
    | true =>
      have same : Phrase.flat [(write item, [])] = write item := by simp [Phrase.flat]
      rw [List.filter_cons_of_pos passes, List.filter_nil, List.map_singleton, same]
      exact written.toPrecedes
    | false =>
      rw [List.filter_cons_of_neg (by rw [passes]; exact Bool.false_ne_true)]
      exact Exact.nil.precedes
  | @cons here between beyond there item separator items written solid _ ih =>
    cases passes : test (item, separator) with
    | true =>
      rw [List.filter_cons_of_pos passes]
      exact (written.toPrecedes.append_solid solid).append_precedes ih
    | false =>
      rw [List.filter_cons_of_neg (by rw [passes]; exact Bool.false_ne_true)]
      exact ih

/-- If a separator stands behind the last of them, anything else may do so. -/
theorem exact_filter (listed : Listed setting write here items there) (test : α × List TokenTree → Bool)
    (separated : (items.filter test).getLast?.all (fun item => !item.2.isEmpty) = true) :
    Exact setting.calm (Phrase.flat ((items.filter test).map fun item => (write item.1, item.2))) := by
  induction listed with
  | nil here => exact .nil
  | @last here there item written =>
    cases passes : test (item, []) with
    | true =>
      rw [List.filter_cons_of_pos passes] at separated
      cases separated
    | false =>
      rw [List.filter_cons_of_neg (by rw [passes]; exact Bool.false_ne_true)]
      exact .nil
  | @cons here between beyond there item separator items written solid _ ih =>
    cases passes : test (item, separator) with
    | true =>
      rw [List.filter_cons_of_pos passes] at separated ⊢
      refine (written.toPrecedes.append_solid solid).append (ih ?_)
      cases others : items.filter test with
      | nil => rfl
      | cons => rwa [others, List.getLast?_cons_cons] at separated
    | false =>
      rw [List.filter_cons_of_neg (by rw [passes]; exact Bool.false_ne_true)] at separated ⊢
      exact ih separated

end Listed
end SlotArray.Source
