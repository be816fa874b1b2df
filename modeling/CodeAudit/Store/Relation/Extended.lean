import CodeAudit.Settings.Numeral

/-!
Numbers of sixty-four binary digits, in which reals are read from digits and turned into them. Every
result is rounded to the nearest of them, of two equally near ones to the even one. They have no
sign.
-/
namespace CodeAudit

/-- The significand times two to the exponent. -/
structure Extended where
  significand : Nat
  exponent : Int
deriving DecidableEq, Repr

namespace Extended

def ofQuotient (num den : Nat) : Extended :=
  if num = 0 then ⟨0, 0⟩
  else
    let guess : Int := (Nat.log2 num : Int) - (Nat.log2 den : Int) - 64
    let (n, d) := Numeral.scaled num den guess
    let exponent := if n < d * Nat.pow 2 64 then guess else guess + 1
    let (n, d) := Numeral.scaled num den exponent
    ⟨Numeral.roundQuotient n d, exponent⟩

def ofNat (n : Nat) : Extended := ofQuotient n 1

/-- The significands of two numbers at the smaller one of their exponents, and that exponent. -/
def aligned (a b : Extended) : Nat × Nat × Int :=
  let least := min a.exponent b.exponent
  (a.significand * Nat.pow 2 (a.exponent - least).toNat,
    b.significand * Nat.pow 2 (b.exponent - least).toNat, least)

/-- The nearest number to a significand times two to an exponent. -/
def ofScaled (significand : Nat) : Int → Extended
  | .ofNat e => ofQuotient (significand * Nat.pow 2 e) 1
  | .negSucc e => ofQuotient significand (Nat.pow 2 (e + 1))

def add (a b : Extended) : Extended :=
  let (m, n, exponent) := aligned a b
  ofScaled (m + n) exponent

/-- The difference from a number that is not larger. -/
def sub (a b : Extended) : Extended :=
  let (m, n, exponent) := aligned a b
  ofScaled (m - n) exponent

def mul (a b : Extended) : Extended :=
  ofScaled (a.significand * b.significand) (a.exponent + b.exponent)

/-- The quotient by a number that is not zero. -/
def div (a b : Extended) : Extended :=
  match a.exponent - b.exponent with
  | .ofNat e => ofQuotient (a.significand * Nat.pow 2 e) b.significand
  | .negSucc e => ofQuotient a.significand (b.significand * Nat.pow 2 (e + 1))

def less (a b : Extended) : Bool :=
  let (m, n, _) := aligned a b
  m < n

/-- The value without what follows the point. -/
def floor (a : Extended) : Nat :=
  match a.exponent with
  | .ofNat e => a.significand * Nat.pow 2 e
  | .negSucc e => a.significand / Nat.pow 2 (e + 1)

/-- The power of ten that repeated squaring arrives at. Every round halves what is left of the
exponent. -/
def tenTo (rounds exponent : Nat) (square result : Extended) : Extended :=
  match rounds with
  | 0 => result
  | rounds + 1 =>
      let result := if exponent % 2 = 1 then result.mul square else result
      if exponent / 2 = 0 then result else tenTo rounds (exponent / 2) (square.mul square) result

def powerOfTen (exponent : Nat) : Extended := tenTo (exponent + 1) exponent (ofNat 10) (ofNat 1)

/-- A finite number without its sign; zero for any other. -/
def ofNumeral : Numeral → Extended
  | .finite _ significand exponent => ⟨significand, exponent⟩
  | _ => ⟨0, 0⟩

/-- The nearest number of 53 bits, with a sign. -/
def toNumeral (negative : Bool) (a : Extended) : Numeral :=
  match a.exponent with
  | .ofNat e => .ofQuotient negative (a.significand * Nat.pow 2 e) 1
  | .negSucc e => .ofQuotient negative a.significand (Nat.pow 2 (e + 1))

end Extended
end CodeAudit
