import CodeAudit.Store.Relation.Arithmetic

/-!
Elementary functions of reals: powers, logarithms, angles, and rounding to whole numbers. They are
about cells that are numbers or are written like numbers; where a function has no value it gives
nothing.
-/
namespace CodeAudit

namespace Numeral

/-- The eight bytes of a number of 53 bits, the sign and the exponent first. -/
def toBits (value : Numeral) : UInt64 :=
  let sign : Nat := if value.isNegative then 0x8000000000000000 else 0
  let size : Nat :=
    match value with
    | nan => 0x7FF8000000000000
    | infinite _ => 0x7FF0000000000000
    | finite _ significand exponent =>
        if significand = 0 then 0
        else
          let top := (Nat.log2 significand : Int) + exponent
          let least : Int := if top < -1022 then -1074 else top - 52
          let (num, den) := quotient significand (exponent - least)
          if top < -1022 then num / den else (top + 1022).toNat * 0x10000000000000 + num / den
  UInt64.ofNat (sign + size)

def toFloat (value : Numeral) : Float := Float.ofBits value.toBits

def ofFloat (x : Float) : Numeral := (ofBits? x.toBits.toNat).getD nan

/-- The remainder that has the sign of the dividend. -/
def modulo : Numeral → Numeral → Numeral
  | finite a m e, finite _ n f =>
      if n = 0 then nan
      else
        let least := min e f
        let rest := m * Nat.pow 2 (e - least).toNat % (n * Nat.pow 2 (f - least).toNat)
        ofScaled (signed a rest) least
  | finite a m e, infinite _ => finite a m e
  | _, _ => nan

/-- The whole number that is reached by going toward zero, or one further for numbers of one
sign. -/
def wholeTo (furtherIfNegative : Option Bool) (value : Numeral) : Numeral :=
  match value with
  | finite negative _ _ =>
      if value.integer?.isSome then value
      else
        let whole := value.truncate
        let step : Int := if furtherIfNegative = some negative then if negative then -1
          else 1 else 0
        match ofInt (whole + step) with
        | finite _ significand exponent => finite negative significand exponent
        | other => other
  | other => other

end Numeral

namespace Cell

def number? : Cell → Option Cell
  | text t =>
      match wholeNumber? t with
      | some i => some (integer i)
      | none => (Numeral.ofDecimal? t).map real
  | integer i => some (integer i)
  | real value => some (real value)
  | _ => none

end Cell

namespace Elementary

def pi : Numeral := .ofScientific false 3141592653589793 10 (-15)

def logTen : Numeral := .ofScientific false 230258509299404568402 10 (-20)

def logTwo : Numeral := .ofScientific false 69314718055994530942 10 (-20)

def one : Numeral := .ofInt 1

def onFloat (f : Float → Float) (value : Numeral) : Numeral := .ofFloat (f value.toFloat)

def isPositive (value : Numeral) : Bool := !value.isNegative && !value.isZero && value != .nan

/-- The natural logarithm of a number above zero. -/
def log? (value : Numeral) : Option Numeral :=
  if isPositive value then some (onFloat Float.log value) else none

def unary : List (String × (Numeral → Option Numeral)) :=
  [("acos", some ∘ onFloat Float.acos), ("acosh", some ∘ onFloat Float.acosh),
    ("asin", some ∘ onFloat Float.asin),
    ("asinh", some ∘ onFloat Float.asinh), ("atan", some ∘ onFloat Float.atan),
      ("atanh", some ∘ onFloat Float.atanh),
    ("cos", some ∘ onFloat Float.cos), ("cosh", some ∘ onFloat Float.cosh),
      ("exp", some ∘ onFloat Float.exp),
    ("sin", some ∘ onFloat Float.sin), ("sinh", some ∘ onFloat Float.sinh),
      ("sqrt", some ∘ onFloat Float.sqrt),
    ("tan", some ∘ onFloat Float.tan), ("tanh", some ∘ onFloat Float.tanh),
    ("degrees", fun value => some (value.mul ((Numeral.ofInt 180).div pi))),
    ("radians", fun value => some (value.mul (pi.div (.ofInt 180)))),
    ("ln", log?), ("log10", fun value => (log? value).map (Numeral.mul (one.div logTen))),
    ("log2", fun value => (log? value).map (Numeral.mul (one.div logTwo)))]

/-- The logarithm of the second number to the base that is the first one. -/
def logOf? (base value : Numeral) : Option Numeral := do
  let divisor ← log? base
  if isPositive divisor then
    let dividend ← log? value
    some (dividend.div divisor)
  else none

/-- The functions of two numbers. -/
def binary : List (String × (Numeral → Numeral → Option Numeral)) :=
  [("atan2", fun a b => some (.ofFloat (Float.atan2 a.toFloat b.toFloat))),
    ("mod", fun a b => some (a.modulo b)),
      ("pow", fun a b => some (.ofFloat (Float.pow a.toFloat b.toFloat))),
    ("power", fun a b => some (.ofFloat (Float.pow a.toFloat b.toFloat)))]

def whole : List (String × Option Bool) :=
  [("ceil", some false), ("ceiling", some false), ("floor", some true), ("trunc", none)]

def ofOption (value : Option Numeral) : Cell := (value.map Cell.ofFinite).getD .null

def applyUnary (f : Numeral → Option Numeral) (a : Cell) : Cell :=
  ofOption (a.number?.bind (fun a => f a.realNumber))

def applyBinary (f : Numeral → Numeral → Option Numeral) (a b : Cell) : Cell :=
  ofOption (do
    let a ← a.number?
    let b ← b.number?
    f a.realNumber b.realNumber)

/-- The logarithm to the base ten, or of a second cell, which counts as the number at its front. -/
def log (a : Cell) (b : Option Cell) : Cell :=
  ofOption (do
    let a ← a.number?
    match b with
    | none => (log? a.realNumber).map (Numeral.mul (one.div logTen))
    | some b => logOf? a.realNumber b.realNumber)

def applyWhole (furtherIfNegative : Option Bool) (a : Cell) : Cell :=
  match a.number? with
  | some (.real value) => .ofFinite (value.wholeTo furtherIfNegative)
  | some cell => cell
  | none => .null

end Elementary
end CodeAudit
