import CodeAudit.Store.Relation.Real

/-!
How reals are written in figures and read from them. A real is written with places after the point,
or with an exponent, or in the one of these ways that suits its size. Both ways go through
sixty-four binary digits.
-/
namespace CodeAudit

/-- The ways of writing reals: by places after the point, by an exponent, or by size. -/
inductive Figures.Style where
  | places | power | bySize
deriving DecidableEq, Repr

structure Figures where
  style : Figures.Style
  /-- The number of digits: after the point, or all of them if the size tells the style. -/
  precision : Nat := 6
  /-- The point is written though nothing follows it, and the size does not drop zeros at the
  end. -/
  keepsPoint : Bool := false
  /-- Up to 26 digits count instead of 16; zeros at the end are dropped, except for one after the
  point. -/
  isLong : Bool := false
  /-- A comma stands before every three digits of the whole part. -/
  groups : Bool := false
  /-- What stands before a number that is not negative, if anything. -/
  sign : Text := []
  /-- The letter before an exponent. -/
  mark : UInt8 := 101
deriving DecidableEq, Repr

namespace Extended

def one : Extended := ofNat 1

def ten : Extended := ofNat 10

def ofReal (digits : Nat) (exponent : Int) : Extended :=
  ofNumeral (.ofScientific false digits 10 exponent)

/-- Multiplies a scale by a step as long as it does not pass a value, and counts powers of ten. -/
def raise (value step : Extended) (power : Nat) : Nat → Extended → Nat → Extended × Nat
  | 0, scale, exponent => (scale, exponent)
  | fuel + 1, scale, exponent =>
      if exponent ≤ 350 && !value.less (step.mul scale) then
        raise value step power fuel (scale.mul step) (exponent + power)
      else (scale, exponent)

/-- Multiplies a value by a step as long as it is below a bound, and counts powers of ten. -/
def lift (bound step : Extended) (power : Nat) : Nat → Extended → Int → Extended × Int
  | 0, value, exponent => (value, exponent)
  | fuel + 1, value, exponent =>
      if value.less bound then lift bound step power fuel (value.mul step) (exponent - power)
      else (value, exponent)

/-- A number between one and ten, and the power of ten that makes it the value. -/
def normalized (value : Extended) : Extended × Int :=
  if value.significand = 0 then (value, 0)
  else
    let (scale, exponent) := raise value (ofReal 1 100) 100 4 one 0
    let (scale, exponent) := raise value (ofReal 1 10) 10 12 scale exponent
    let (scale, exponent) := raise value ten 1 12 scale exponent
    let (value, exponent) := lift (ofReal 1 (-8)) (ofReal 1 8) 8 50 (value.div scale) exponent
    lift one ten 1 12 value exponent

/-- The digits of a number below ten. After those that count there are zeros. -/
def digits : Nat → Nat → Extended → Text
  | 0, _, _ => []
  | count, 0, _ => List.replicate count 48
  | count + 1, counted + 1, value =>
      let digit := value.floor
      (48 + digit.toUInt8) :: digits count counted ((value.sub (ofNat digit)).mul ten)

end Extended

namespace Figures

/-- What is added so that cutting off after some places rounds. -/
def half (places : Nat) : Numeral :=
  (List.range (places / 10)).foldl (fun half _ => half.mul (.ofScientific false 1 10 (-10)))
    (.ofScientific false 5 10 (-(places % 10 + 1 : Nat)))

def binaryPower (significand : Nat) (exponent : Int) : Int :=
  if significand = 0 then -1023 else max (-1023) (Nat.log2 significand + exponent)

/-- The value, so that cutting off after the places rounds. Where few digits count, a little more is
added. -/
def rounded (places significand : Nat) (exponent : Int) : Extended :=
  let value := Extended.ofNumeral (.finite false significand exponent)
  let half := half (places % 4096)
  let half :=
    if (places : Int) + (binaryPower significand exponent).tdiv 3 < 15 then
      ((Extended.ofNumeral half).add (value.mul (.ofReal 3 (-16)))).toNumeral false
    else half
  value.add (.ofNumeral half)

/-- The digits of a whole part with a comma before every three of them. -/
def grouped : Text → Text
  | [] => []
  | digit :: rest => if rest.length % 3 = 0 ∧ !rest.isEmpty then digit :: 44 :: grouped rest
      else digit :: grouped rest

/-- Drops the zeros at the end, and the point if nothing follows it. -/
def shortened (isLong : Bool) (t : Text) : Text :=
  match t.reverse.dropWhile (· == 48) with
  | 46 :: before => before.reverse ++ if isLong then [46, 48] else []
  | rest => rest.reverse

/-- An exponent of at least two digits after its letter. -/
def exponentText (mark : UInt8) (exponent : Int) : Text :=
  let size := Text.ofNat exponent.natAbs
  [mark, if exponent < 0 then 45 else 43] ++ List.replicate (2 - size.length) 48 ++ size

def writeFinite (figures : Figures) (significand : Nat) (exponent : Int) : Text :=
  let precision := if figures.style = .bySize then figures.precision - 1 else figures.precision
  let (value, power) :=
    if figures.style = .places then (rounded precision significand exponent).normalized
    else
      let (value, power) := (Extended.ofNumeral (.finite false significand exponent)).normalized
      let value := value.add (.ofNumeral (half (precision % 4096)))
      if value.less .ten then (value, power) else (value.mul (.ofReal 1 (-1)), power + 1)
  let hasExponent := figures.style = .power ||
    (figures.style = .bySize && (power < -4 || precision < power))
  let places : Nat :=
    if figures.style = .bySize && !hasExponent then ((precision : Int) - power).toNat else precision
  let first : Int := if hasExponent then 0 else power
  let wholes := (first + 1).toNat
  let zeros := min places (-(first + 1)).toNat
  let digits := Extended.digits (wholes + (places - zeros))
    (if figures.isLong then 26 else 16) value
  let whole := digits.take wholes
  let whole := if wholes = 0 then [48] else if figures.groups then grouped whole else whole
  let hasPoint := 0 < places || figures.keepsPoint || figures.isLong
  let text :=
    whole ++ (if hasPoint then [46] else []) ++ List.replicate zeros 48 ++ digits.drop wholes
  let dropsZeros := if figures.style = .bySize then !figures.keepsPoint else figures.isLong
  (if dropsZeros && hasPoint then shortened figures.isLong text else text) ++
    if hasExponent then exponentText figures.mark power else []

/-- The sign of a number and the number without it. -/
def write (figures : Figures) : Numeral → Text × Text
  | .nan => ([], utf8 "NaN")
  | .infinite negative => (if negative then [45] else figures.sign, utf8 "Inf")
  | .finite negative significand exponent =>
      (if negative && significand != 0 then [45]
        else figures.sign, figures.writeFinite significand exponent)

/-- The largest digits that another one can still be put behind. -/
def room : Nat := 922337203685477579

/-- Puts digits behind others until there is no more room, and tells how many are left. -/
def gather (found : Nat) : Text → Nat × Nat
  | [] => (found, 0)
  | b :: rest =>
      let found := found * 10 + (b - 48).toNat
      if room ≤ found then (found, rest.length) else gather found rest

/-- Puts digits behind others as long as there is room, and tells how many. -/
def gatherFraction (found taken : Nat) : Text → Nat × Nat
  | [] => (found, taken)
  | b :: rest =>
      if found < room then gatherFraction (found * 10 + (b - 48).toNat) (taken + 1) rest
      else (found, taken)

/-- Takes powers of ten into the digits. -/
def raised : Nat → Nat → Nat → Nat × Nat
  | 0, found, exponent => (found, exponent)
  | fuel + 1, found, exponent =>
      if exponent = 0 ∨ 922337203685477580 ≤ found then (found, exponent)
      else raised fuel (found * 10) (exponent - 1)

/-- Takes zeros at the end out of the digits. -/
def lowered : Nat → Nat → Nat → Nat × Nat
  | 0, found, exponent => (found, exponent)
  | fuel + 1, found, exponent =>
      if exponent = 0 ∨ found % 10 ≠ 0 then (found, exponent)
      else lowered fuel (found / 10) (exponent - 1)

def valueOf (negative : Bool) (found : Nat) (exponent : Int) : Numeral :=
  if found = 0 then .finite negative 0 0
  else
    let up := 0 ≤ exponent
    let (found, size) := if up then raised 20 found exponent.natAbs
      else lowered 20 found exponent.natAbs
    let scaled (size : Nat) : Numeral :=
      let scale := Extended.powerOfTen size
      (if up then (Extended.ofNat found).mul scale
        else (Extended.ofNat found).div scale).toNumeral negative
    if size = 0 then .ofQuotient negative found 1
    else if size ≤ 307 then scaled size
    else if 342 ≤ size then if up then .infinite negative else .finite negative 0 0
    else
      let most := Numeral.ofScientific false 1 10 308
      if up then (scaled (size - 308)).mul most else (scaled (size - 308)).div most

end Figures

namespace Numeral

/-- Fifteen digits without the zeros at the end, and always a point. -/
def print (value : Numeral) : Text :=
  let (sign, figures) := Figures.write { style := .bySize, precision := 15, isLong := true } value
  sign ++ figures

def ofDecimal? (t : Text) : Option Numeral := do
  let t := t.trim
  let negative := t.head? = some 45
  let t := if negative ∨ t.head? = some 43 then t.tail else t
  let whole := t.takeWhile isDigitByte
  let rest := t.drop whole.length
  let fraction := if rest.head? = some 46 then rest.tail.takeWhile isDigitByte else []
  let rest := if rest.head? = some 46 then rest.tail.drop fraction.length else rest
  let exponent ←
    match rest with
    | [] => some 0
    | e :: rest => if lowerByte e = 101 then exponent? rest else none
  if whole.isEmpty && fraction.isEmpty then none
  else
    let (found, left) := Figures.gather 0 whole
    let (found, taken) := Figures.gatherFraction found 0 fraction
    some (Figures.valueOf negative found (max (-10000) (min 10000 exponent) + left - taken))

end Numeral
end CodeAudit
