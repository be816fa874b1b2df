import CodeAudit.Document

/-!
Texts that are numerals: decimal or hexadecimal with fraction and exponent, infinities and
not-a-number. Their value is the nearest binary floating-point number of 53 bits, of two equally
near ones the even one.
-/
namespace CodeAudit

inductive Numeral where
  | nan
  | infinite (negative : Bool)
  /-- The significand times two to the exponent. -/
  | finite (negative : Bool) (significand : Nat) (exponent : Int)
deriving DecidableEq, Repr

namespace Numeral

def isFinite : Numeral → Bool
  | finite _ _ _ => true
  | _ => false

/-- The value as an integer, if it is one. -/
def integer? : Numeral → Option Int
  | finite negative significand exponent =>
      let signed (n : Nat) : Int := if negative then -(n : Int) else n
      match exponent with
      | .ofNat e => some (signed (significand * Nat.pow 2 e))
      | .negSucc e =>
          let unit := Nat.pow 2 (e + 1)
          if significand % unit = 0 then some (signed (significand / unit)) else none
  | _ => none

/-- The integer nearest to a quotient, of two equally near ones the even one. -/
def roundQuotient (num den : Nat) : Nat :=
  let down := num / den
  let rest := 2 * (num % den)
  if rest < den ∨ (rest = den ∧ down % 2 = 0) then down else down + 1

/-- The quotient at a binary scale, that is, divided by two to the exponent. -/
def scaled (num den : Nat) : Int → Nat × Nat
  | .ofNat e => (num, den * Nat.pow 2 e)
  | .negSucc e => (num * Nat.pow 2 (e + 1), den)

/-- Rounds a quotient to 53 bits, or to fewer below the least normal number; too large a value is
infinite. -/
def ofQuotient (negative : Bool) (num den : Nat) : Numeral :=
  if num = 0 then finite negative 0 0
  else
    let guess : Int := (Nat.log2 num : Int) - (Nat.log2 den : Int) - 53
    let (n, d) := scaled num den guess
    let exponent := max (if n < d * Nat.pow 2 53 then guess else guess + 1) (-1074)
    let (n, d) := scaled num den exponent
    let significand := roundQuotient n d
    if 1024 < exponent + 53 ∨ (exponent + 53 = 1024 ∧ significand = Nat.pow 2 53) then
      infinite negative
    else finite negative significand exponent

/-- Digits times a power of a base. A size that no rounding could bring into range is settled at
once. -/
def ofScientific (negative : Bool) (digits base : Nat) (exponent : Int) : Numeral :=
  if digits = 0 then finite negative 0 0
  else
    let size : Int := Nat.log2 digits + exponent * Nat.log2 base
    if 0 ≤ exponent ∧ 1100 < size then infinite negative
    else if exponent < 0 ∧ size < -1200 then finite negative 0 0
    else
      match exponent with
      | .ofNat e => ofQuotient negative (digits * Nat.pow base e) 1
      | .negSucc e => ofQuotient negative digits (Nat.pow base (e + 1))

/-- An exponent part after its letter: an optional sign and digits. -/
def exponent? (t : Text) : Option Int :=
  match t with
  | 45 :: digits => (Document.ofDigits? 10 digits).map (fun n => -(n : Int))
  | 43 :: digits => (Document.ofDigits? 10 digits).map Int.ofNat
  | digits => (Document.ofDigits? 10 digits).map Int.ofNat

/-- Digits with at most one point among them, at least one digit, and an optional exponent after
`mark`. -/
def positional? (negative : Bool) (base pointWeight exponentBase : Nat) (mark : UInt8) (t : Text) :
    Option Numeral := do
  let isDigit (b : UInt8) : Bool := Document.digitValue b < base
  let whole := t.takeWhile isDigit
  let rest := t.dropWhile isDigit
  let fraction := if rest.head? = some 46 then rest.tail.takeWhile isDigit else []
  let rest := if rest.head? = some 46 then rest.tail.dropWhile isDigit else rest
  let digits ← Document.ofDigits? base (whole ++ fraction)
  let exponent ←
    match rest with
    | [] => some 0
    | e :: rest => if lowerByte e = mark then exponent? rest else none
  some (ofScientific negative digits exponentBase (exponent - fraction.length * pointWeight))

/-- The payload that may follow not-a-number. -/
def isPayload (t : Text) : Bool :=
  t.head? = some 40 && t.getLast? = some 41 && 2 ≤ t.length &&
    (t.tail.dropLast).all (fun b => isLetterByte b || isDigitByte b || b == 95)

def unsigned? (negative : Bool) (t : Text) : Option Numeral :=
  let low := t.lower
  if low = utf8 "inf" ∨ low = utf8 "infinity" then some (infinite negative)
  else if (utf8 "nan").isPrefixOf low ∧ (low.length = 3 ∨ isPayload (low.drop 3)) then some nan
  else if (utf8 "0x").isPrefixOf low then positional? negative 16 4 2 112 (low.drop 2)
  else positional? negative 10 1 10 101 low

/-- A numeral may follow blanks and a sign, and nothing may follow it. A text counts up to its first
NUL; one that is empty only for that reason is zero. -/
def ofText? (text : Text) : Option Numeral :=
  if text.isEmpty then none
  else
    match text.beforeNul with
    | [] => some (finite false 0 0)
    | visible =>
        match visible.dropWhile isBlankByte with
        | 45 :: rest => unsigned? true rest
        | 43 :: rest => unsigned? false rest
        | rest => unsigned? false rest

end Numeral
end CodeAudit
