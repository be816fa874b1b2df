import CodeAudit.Fault
import CodeAudit.Store.Relation.Elementary

/-!
Functions about numbers: their size and sign, and numbers with fewer digits.
-/
namespace CodeAudit
namespace Function

def absolute : Cell → Except EngineFault Cell
  | .null => .ok .null
  | .integer value =>
      if value = Int64.minValue then .error .overflow
      else .ok (.integer (if value < 0 then -value else value))
  | cell =>
      .ok (.real (if cell.realNumber.isNegative then cell.realNumber.negate else cell.realNumber))

def sign (cell : Cell) : Cell :=
  match cell.number? with
  | some (.integer value) => .integer (if value < 0 then -1 else if value = 0 then 0 else 1)
  | some (.real value) => .integer (if value.isZero then 0 else if value.isNegative then -1 else 1)
  | _ => .null

/-- The numbers from this one on have no digits after the point. -/
def wholeFrom : Numeral := .finite false 4503599627370496 0

/-- A number with some digits after the point, at most thirty. A half is rounded away from zero, and
so is what is hardly less when it is written. -/
def round (cell digits : Cell) : Cell :=
  if cell.isNull || digits.isNull then .null
  else
    let value := cell.realNumber
    let size := if value.isNegative then value.negate else value
    let digits := (max 0 (min 30 (Int.bmod digits.number.toInt 4294967296))).toNat
    if size.compareTo wholeFrom == .gt then .real value
    else if digits = 0 then
      let whole := (value.add (.ofScientific value.isNegative 5 10 (-1))).truncate
      .real (.ofInt whole)
    else
      let (mark, figures) := Figures.write { style := .places, precision := digits } value
      .real ((Numeral.ofDecimal? (mark ++ figures)).getD value)

end Function
end CodeAudit
