import SlotArray.Proofs.Written.Sources

/-! How the tokens of a source text are joined. A character of an operator is joined to the next one only
where that is in the text, so an operator goes on wherever one of its characters is joined to something.
Settled tokens that have this property are read again with each character joined as it was. -/
namespace SlotArray.Source
open SlotArray.Text

/-- Whether a token is a character of an operator that is joined to what comes next. A quote belongs to a word. -/
def Token.joins : Token → Bool
  | .leaf (.mark char joint) => joint && char != '\''
  | _ => false

/-- Whether tokens begin with an operator. Where there are none, it depends on what stands behind them. -/
def Token.leads (operator : Bool) : List Token → Bool
  | [] => operator
  | token :: _ => token.beginsOperator

/-- Tokens in which an operator goes on wherever one of its characters is joined to what comes next. -/
def Tied (operator : Bool) : List Token → Prop
  | [] => True
  | token :: rest => (token.joins = true → Token.leads operator rest = true) ∧ Tied operator rest

theorem Token.leads_append (operator : Bool) (tokens more : List Token) :
    Token.leads operator (tokens ++ more) = Token.leads (Token.leads operator more) tokens := by
  cases tokens <;> rfl

theorem Token.leads_mono {operator other : Bool} (weaker : operator = true → other = true) (tokens : List Token)
    (leads : Token.leads operator tokens = true) : Token.leads other tokens = true := by
  cases tokens with
  | nil => exact weaker leads
  | cons => exact leads

namespace Tied
variable {operator other : Bool} {token : Token} {tokens more : List Token}

theorem nil : Tied operator [] := trivial

theorem cons (apart : token.joins = false) (tied : Tied operator tokens) : Tied operator (token :: tokens) :=
  ⟨fun joins => absurd joins (by rw [apart]; decide), tied⟩

theorem append_iff : Tied operator (tokens ++ more) ↔ Tied (Token.leads operator more) tokens ∧ Tied operator more := by
  induction tokens with
  | nil => exact ⟨fun tied => ⟨nil, tied⟩, And.right⟩
  | cons token tokens ih => rw [List.cons_append, Tied, ih, Tied, Token.leads_append, and_assoc]

theorem mono (weaker : operator = true → other = true) (tied : Tied operator tokens) : Tied other tokens := by
  induction tokens with
  | nil => exact nil
  | cons token tokens ih => exact ⟨fun joins => Token.leads_mono weaker tokens (tied.1 joins), ih tied.2⟩

/-- What is joined to nothing behind it may have anything there. -/
theorem of_apart (tied : Tied false tokens) : Tied operator tokens := tied.mono fun never => absurd never Bool.false_ne_true

/-- Settled tokens are read again as they are joined. -/
theorem rejoined_eq (tied : Tied false tokens) (settled : Settled tokens) : Token.rejoined false tokens = tokens := by
  induction settled with
  | nil => rfl
  | @cons token rest fits _ ih =>
    have same : token.rejoin false rest = token := by
      cases fits with
      | opening | closing | word | literal | slash => cases rest <;> rfl
      | @operator char joint _ plain =>
        have goesOn := tied.1
        have noQuote : (char == '\'') = false := beq_eq_false_iff_ne.mpr (isPlainOperator_iff.mp plain).2.2
        rw [Token.joins, bne, noQuote, Bool.not_false, Bool.and_true] at goesOn
        rw [Token.rejoin, noQuote, Bool.false_or]
        cases joint with
        | false => cases rest <;> rfl
        | true =>
          cases rest with
          | nil => cases goesOn rfl
          | cons next rest => exact congrArg (fun joint => Token.leaf (.mark char joint)) (goesOn rfl)
      | @joinedSlash leaf rest _ => exact congrArg (fun joint => Token.leaf (.mark '/' joint)) (tied.1 rfl)
      | quote => rfl
    rw [Token.rejoined, same, ih tied.2]

end Tied

end SlotArray.Source
