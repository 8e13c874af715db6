import Mathlib.Algebra.Order.Ring.Nat
import SlotArray.Proofs.Written.Literals

/-! What a documenting comment says, as a string literal. Whatever it is, its characters are plain or
escaped, so the literal is read as one. -/
namespace SlotArray.Source
open SlotArray.Text

/-! ## Code points -/

private theorem hexDigit?_digitChar {digit : Nat} (small : digit < 16) :
    hexDigit? (Nat.digitChar digit) = some digit := by
  have all : ∀ digit < 16, hexDigit? (Nat.digitChar digit) = some digit := by decide
  exact all digit small

private theorem digits_cons {c : Char} {digit : Nat} (known : hexDigit? c = some digit) {count : Nat}
    (room : count < 6) (value length : Nat) (rest : List Char) :
    braceEscape?.digits count value length (c :: rest) =
      braceEscape?.digits (count + 1) (value * 16 + digit) (length + 1) rest := by
  rw [braceEscape?.digits, known]
  exact if_neg (by omega)

/-- The digits of a number are read as that number. -/
private theorem digits_toDigits (number count value length : Nat) (rest : List Char)
    (room : count + (Nat.toDigits 16 number).length ≤ 6) :
    braceEscape?.digits count value length (Nat.toDigits 16 number ++ rest) =
      braceEscape?.digits (count + (Nat.toDigits 16 number).length)
        (value * 16 ^ (Nat.toDigits 16 number).length + number)
        (length + (Nat.toDigits 16 number).length) rest := by
  induction number using Nat.strongRecOn generalizing count rest with
  | _ number ih =>
    by_cases small : number < 16
    · rw [Nat.toDigits_of_lt_base small] at room ⊢
      rw [List.singleton_append, digits_cons (hexDigit?_digitChar small) (by rw [List.length_singleton] at room; omega)]
      rfl
    · have split := Nat.toDigits_of_base_le (by decide : 1 < 16) (Nat.le_of_not_lt small)
      have fewer : number / 16 < number := by omega
      rw [split, List.length_append, List.length_singleton] at room ⊢
      rw [List.append_assoc, ih _ fewer _ _ (by omega), List.singleton_append,
        digits_cons (hexDigit?_digitChar (Nat.mod_lt _ (by decide))) (by omega)]
      have rejoined : (value * 16 ^ (Nat.toDigits 16 (number / 16)).length + number / 16) * 16 + number % 16 =
          value * 16 ^ ((Nat.toDigits 16 (number / 16)).length + 1) + number := by
        rw [Nat.pow_succ]
        have parts := Nat.div_add_mod number 16
        rw [Nat.add_mul, Nat.mul_assoc]
        omega
      rw [rejoined]
      congr 1

private theorem isScalar_toNat (c : Char) : isScalar c.toNat = true := by
  have valid := c.valid
  simp only [UInt32.isValidChar, Nat.isValidChar] at valid
  have same : c.val.toNat = c.toNat := rfl
  simp only [isScalar, Bool.or_eq_true, Bool.and_eq_true, decide_eq_true_eq]
  omega

private theorem length_hexDigits (c : Char) : (hexDigits c.toNat).length ≤ 6 := by
  have bound := isScalar_toNat c
  simp only [isScalar, Bool.or_eq_true, Bool.and_eq_true, decide_eq_true_eq] at bound
  rw [hexDigits, Nat.length_toDigits_le_iff (by decide) (by decide)]
  omega

private theorem braceEscape?_hexDigits (c : Char) (rest : List Char) :
    braceEscape? ('\x7b' :: (hexDigits c.toNat ++ '\x7d' :: rest)) =
      some (c.toNat, (hexDigits c.toNat).length + 2) := by
  have digits := digits_toDigits c.toNat 0 0 1 ('\x7d' :: rest)
    (by have few := length_hexDigits c; rw [hexDigits] at few; omega)
  have closing : hexDigit? '\x7d' = none := by decide
  have any : (Nat.toDigits 16 c.toNat).length ≠ 0 := by
    have filled := List.length_pos_iff.mpr (@Nat.toDigits_ne_nil c.toNat 16)
    omega
  rw [braceEscape?, hexDigits, digits, braceEscape?.digits, closing]
  simp only [Nat.zero_mul, Nat.zero_add, if_neg any, isScalar_toNat c]
  rw [Nat.add_comm 1, Nat.add_assoc]
  rfl

/-! ## Quoted text -/

private theorem quotedLength_escape {escape : List Char}
    (known : ∀ rest, escapedLength textRules (escape ++ rest) = some escape.length) (rest : List Char) :
    quotedLength textRules ('\\' :: escape ++ rest) =
      (quotedLength textRules rest).map (· + ('\\' :: escape).length) := by
  rw [List.cons_append, quotedLength_backslash, known]
  simp only [List.drop_left, List.length_cons, Nat.add_comm 1]

/-- A character is passed over as it is quoted. -/
private theorem quotedLength_quoteChar (c : Char) (next : Option Char) (rest : List Char) :
    quotedLength textRules (quoteChar c next ++ rest) =
      (quotedLength textRules rest).map (· + (quoteChar c next).length) := by
  unfold quoteChar
  split
  · split
    · exact @quotedLength_escape ['x', '0', '0'] (fun _ => rfl) rest
    · exact @quotedLength_escape ['0'] (fun _ => rfl) rest
  · exact @quotedLength_escape ['t'] (fun _ => rfl) rest
  · exact @quotedLength_escape ['r'] (fun _ => rfl) rest
  · exact @quotedLength_escape ['n'] (fun _ => rfl) rest
  · exact @quotedLength_escape ['"'] (fun _ => rfl) rest
  · exact @quotedLength_escape ['\\'] (fun _ => rfl) rest
  · rename_i noTab noReturn noFeed noQuote noSlash
    split
    · rw [List.singleton_append, quotedLength_plain noQuote noReturn noSlash rfl]
      rfl
    · have escape : ∀ rest, escapedLength textRules ('u' :: '\x7b' :: hexDigits c.toNat ++ ['\x7d'] ++ rest) =
          some ('u' :: '\x7b' :: hexDigits c.toNat ++ ['\x7d']).length := by
        intro rest
        have braces := braceEscape?_hexDigits c rest
        have spelled : 'u' :: '\x7b' :: hexDigits c.toNat ++ ['\x7d'] ++ rest =
            'u' :: '\x7b' :: (hexDigits c.toNat ++ '\x7d' :: rest) := by simp
        have first : escapedLength textRules ('u' :: '\x7b' :: (hexDigits c.toNat ++ '\x7d' :: rest)) =
            escapeLength textRules ('u' :: '\x7b' :: (hexDigits c.toNat ++ '\x7d' :: rest)) := rfl
        have allowed : textRules.code c.toNat = true := rfl
        rw [spelled, first, escapeLength, braces]
        simp only [allowed, if_true, List.length_append, List.length_cons, List.length_nil]
        congr 1
        omega
      exact quotedLength_escape escape rest

private theorem quotedLength_body (text rest : List Char) :
    quotedLength textRules (quote.body text ++ rest) =
      (quotedLength textRules rest).map (· + (quote.body text).length) := by
  induction text with
  | nil => exact Option.map_id'.symm
  | cons c text ih =>
    rw [quote.body, List.append_assoc, quotedLength_quoteChar, ih, Option.map_map, List.length_append]
    refine congrArg (Option.map · _) (funext fun length => ?_)
    simp only [Function.comp_apply]
    omega

/-- Quoted text is cut off as a literal. -/
theorem piece?_quote (text : List Char) : piece? (quote text) = some (.literal, (quote text).length) := by
  have measured : quotedLiteralLength (quote text) = some (quote text).length := by
    have inner := quotedLength_body text ['"']
    have closed : quotedLength textRules ['"'] = some 1 := by simp [quotedLength]
    rw [closed, Option.map_some] at inner
    rw [quote, List.singleton_append, List.cons_append, quotedLiteralLength, inner]
    simp [Nat.add_comm]
  have whole : literalLength (quote text) = some (quote text).length := by
    rw [literalLength, measured]
    simp [withSuffix, suffixLength, wordLength]
  have first : piece? (quote text) = lexeme? (quote text) := rfl
  rw [first]
  unfold lexeme?
  rw [whole]

end SlotArray.Source
