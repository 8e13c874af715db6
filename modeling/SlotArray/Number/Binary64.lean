/-! Binary floating point numbers of 64 bits, read from decimals and written as the
shortest decimals that read back. Everything is exact arithmetic on natural numbers. -/
namespace SlotArray

/-- A floating point number, as the 64 bits that encode it. -/
structure Binary64 where
  bits : UInt64
deriving DecidableEq, Repr

namespace Binary64

/-- The bit that makes a number negative. -/
def signBit : UInt64 := 0x8000000000000000

def infinity : Binary64 := ⟨0x7FF0000000000000⟩

def nan : Binary64 := ⟨0x7FF8000000000000⟩

/-- The number with its sign turned. -/
def neg (x : Binary64) : Binary64 := ⟨x.bits ^^^ signBit⟩

def isNegative (x : Binary64) : Bool := x.bits &&& signBit != 0

/-- The bits without the sign. -/
def magnitude (x : Binary64) : Nat := (x.bits &&& 0x7FFFFFFFFFFFFFFF).toNat

def isInfinite (x : Binary64) : Bool := x.magnitude == 0x7FF0000000000000

def isNaN (x : Binary64) : Bool := decide (0x7FF0000000000000 < x.magnitude)

/-- A power of two. -/
def twoTo (exponent : Nat) : Nat := Nat.pow 2 exponent

/-- A power of ten. -/
def tenTo (exponent : Nat) : Nat := Nat.pow 10 exponent

/-- The finite value `m * 2 ^ (e - 1074)` of a magnitude, as `m` and `e`. -/
def parts (magnitude : Nat) : Nat × Nat :=
  let fraction := magnitude % twoTo 52
  match magnitude / twoTo 52 with
  | 0 => (fraction, 0)
  | e + 1 => (fraction + twoTo 52, e)

/-- The quotient nearest to `num / den`; a tie goes to the even one. -/
def nearest (num den : Nat) : Nat :=
  let below := num / den
  let twice := 2 * (num % den)
  if twice < den then below
  else if den < twice then below + 1
  else if below % 2 = 0 then below else below + 1

/-- The number nearest to `num / den`, both positive. -/
def ofRatio (num den : Nat) : Binary64 :=
  let num := num * twoTo 1074
  -- `num / den` lies between `2 ^ (size - 1)` and `2 ^ (size + 1)`.
  let size := num.log2 - den.log2
  let low := size - 53
  let e := if num / (den * twoTo low) < twoTo 53 then low else low + 1
  let m := nearest num (den * twoTo e)
  -- A mantissa rounded up to `2 ^ 53` carries into the exponent by itself.
  let magnitude := if m < twoTo 52 then m else e * twoTo 52 + m
  if magnitude < 0x7FF0000000000000 then ⟨UInt64.ofNat magnitude⟩ else infinity

/-- The number nearest to `digits * 10 ^ exponent`. -/
def ofDecimal (digits : Nat) (exponent : Int) : Binary64 :=
  let size : Int := (Nat.toDigits 10 digits).length
  if digits = 0 then ⟨0⟩
  else if 400 < size + exponent then infinity
  else if size + exponent < -400 then ⟨0⟩
  else
    match exponent with
    | .ofNat e => ofRatio (digits * tenTo e) 1
    | .negSucc e => ofRatio digits (tenTo (e + 1))

/-- The whole numbers `n` for which `n * 10 ^ power` is nearest to a value, below and above it,
as far as they read back as the magnitude, the nearer one first. -/
def candidates (magnitude : Nat) (power : Int) : List Nat :=
  let (m, e) := parts magnitude
  -- The value is `num / den` in units of `10 ^ power`.
  let (num, den) :=
    match power with
    | .ofNat p => (m * twoTo e, twoTo 1074 * tenTo p)
    | .negSucc p => (m * twoTo e * tenTo (p + 1), twoTo 1074)
  let below := num / den
  let order := if nearest num den = below then [below, below + 1] else [below + 1, below]
  order.filter fun n => n != 0 && (ofDecimal n power).bits.toNat == magnitude

/-- The decimal with the fewest digits that reads back as a positive finite magnitude: a whole
number and a power of ten. -/
def shortest (magnitude : Nat) : Nat × Int :=
  go 24 (top + 3)
where
  /-- An exponent of ten above that of the value. -/
  top : Int :=
    let (m, e) := parts magnitude
    ((m.log2 + e : Nat) - 1074 : Int) * 30103 / 100000 + 1
  /-- Tries one power of ten after another, the coarsest first. -/
  go (digits : Nat) (power : Int) : Nat × Int :=
    match candidates magnitude power with
    | n :: _ => (n, power)
    | [] =>
      match digits with
      | 0 => (0, power)
      | digits + 1 => go digits (power - 1)

/-- A decimal written out without an exponent, with `.0` when it is whole. -/
def writeDecimal (digits : Nat) (power : Int) : List Char :=
  let text := Nat.toDigits 10 digits
  match power with
  | .ofNat p => text ++ List.replicate p '0' ++ ['.', '0']
  | .negSucc p =>
    let places := p + 1
    let padded := List.replicate (places + 1 - text.length) '0' ++ text
    let whole := padded.take (padded.length - places)
    let fraction := padded.drop (padded.length - places)
    let shown := (fraction.reverse.dropWhile (· == '0')).reverse
    whole ++ ['.'] ++ (if shown.isEmpty then ['0'] else shown)

/-- The number as text: the fewest digits that read back, never with an exponent. -/
def write (x : Binary64) : String :=
  let sign := if x.isNegative then "-" else ""
  if x.isNaN then sign ++ "nan"
  else if x.isInfinite then sign ++ "inf"
  else if x.magnitude = 0 then sign ++ "0.0"
  else
    let (digits, power) := shortest x.magnitude
    sign ++ String.ofList (writeDecimal digits power)

end Binary64
end SlotArray
