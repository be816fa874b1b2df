import CodeAudit.Store.Relation.Extended

/-!
Calculating with reals. Every result is rounded to 53 bits; what has no value is not-a-number.
-/
namespace CodeAudit
namespace Numeral

/-- The number that eight bytes hold, the sign and the exponent first; nothing for not-a-number. -/
def ofBits? (bits : Nat) : Option Numeral :=
  let negative := bits / 0x8000000000000000 % 2 == 1
  let exponent := bits / 0x10000000000000 % 0x800
  let fraction := bits % 0x10000000000000
  if exponent = 0x7FF then if fraction = 0 then some (infinite negative) else none
  else if exponent = 0 then some (finite negative fraction (-1074))
  else some (finite negative (0x10000000000000 + fraction) ((exponent : Int) - 1075))

/-- A quotient of whole numbers with the value, for a finite number without its sign. -/
def quotient (significand : Nat) : Int → Nat × Nat
  | .ofNat e => (significand * Nat.pow 2 e, 1)
  | .negSucc e => (significand, Nat.pow 2 (e + 1))

/-- The value without what follows the point. -/
def truncate : Numeral → Int
  | finite negative significand exponent =>
      let (num, den) := quotient significand exponent
      if negative then -((num / den : Nat) : Int) else (num / den : Nat)
  | infinite negative => if negative then -0x8000000000000000 else 0x7FFFFFFFFFFFFFFF
  | nan => 0

/-- The order of two numbers, the signed significand of each before its exponent. -/
def compareScaled (a : Int) (aExponent : Int) (b : Int) (bExponent : Int) : Ordering :=
  let least := min aExponent bExponent
  compare (a * (Nat.pow 2 (aExponent - least).toNat : Nat))
    (b * (Nat.pow 2 (bExponent - least).toNat : Nat))

def compareTo : Numeral → Numeral → Ordering
  | nan, nan => .eq
  | nan, _ => .lt
  | _, nan => .gt
  | infinite a, infinite b => compare b.toNat a.toNat
  | infinite a, _ => if a then .lt else .gt
  | _, infinite b => if b then .gt else .lt
  | finite a m e, finite b n f =>
      compareScaled (if a then -(m : Int) else m) e (if b then -(n : Int) else n) f

/-- A signed significand times two to an exponent, rounded. -/
def ofScaled (significand exponent : Int) : Numeral :=
  match exponent with
  | .ofNat e => ofQuotient (significand < 0) (significand.natAbs * Nat.pow 2 e) 1
  | .negSucc e => ofQuotient (significand < 0) significand.natAbs (Nat.pow 2 (e + 1))

def ofInt (i : Int) : Numeral := ofScaled i 0

def signed (negative : Bool) (significand : Nat) : Int := if negative then -(significand : Int)
    else significand

def negate : Numeral → Numeral
  | nan => nan
  | infinite negative => infinite !negative
  | finite negative significand exponent => finite (!negative) significand exponent

def isNegative : Numeral → Bool
  | nan => false
  | infinite negative | finite negative _ _ => negative

def isZero : Numeral → Bool
  | finite _ significand _ => significand == 0
  | _ => false

def add : Numeral → Numeral → Numeral
  | finite a m e, finite b n f =>
      let least := min e f
      let aligned (s : Int) (exponent : Int) : Int := s * (Nat.pow 2 (exponent - least).toNat : Nat)
      ofScaled (aligned (signed a m) e + aligned (signed b n) f) least
  | infinite a, infinite b => if a = b then infinite a else nan
  | nan, _ | _, nan => nan
  | infinite a, _ | _, infinite a => infinite a

def mul : Numeral → Numeral → Numeral
  | finite a m e, finite b n f => ofScaled (signed a m * signed b n) (e + f)
  | nan, _ | _, nan => nan
  | a, b => if a.isZero || b.isZero then nan else infinite (a.isNegative != b.isNegative)

def div : Numeral → Numeral → Numeral
  | finite a m e, finite b n f =>
      match e - f with
      | .ofNat k => ofQuotient (a != b) (m * Nat.pow 2 k) n
      | .negSucc k => ofQuotient (a != b) m (n * Nat.pow 2 (k + 1))
  | nan, _ | _, nan => nan
  | infinite _, infinite _ => nan
  | infinite a, b => infinite (a != b.isNegative)
  | a, infinite b => finite (a.isNegative != b) 0 0

end Numeral
end CodeAudit
