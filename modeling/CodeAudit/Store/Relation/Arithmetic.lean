import CodeAudit.Store.Relation.Cell
import CodeAudit.Store.Relation.Token

/-!
Calculating with cells. A text counts as the number at its front, nothing makes the result nothing,
and integers stay integers as long as 64 bits hold the result.
-/
namespace CodeAudit
namespace Numeral

def signLength (t : Text) : Nat := if t.head? = some 45 ∨ t.head? = some 43 then 1 else 0

/-- The number at the front of a text after blanks: its sign and digits with a fraction and an
exponent. -/
def frontOf (t : Text) : Text :=
  let t := t.dropWhile isBlankByte
  let sign := signLength t
  let number := (t.drop sign).take (Token.numberLength (t.drop sign))
  if number.any isDigitByte then t.take sign ++ number else []

end Numeral

inductive Operation where
  | plus | minus | times | over | modulo
deriving DecidableEq, Repr

namespace Cell

def ofFinite (value : Numeral) : Cell := if value = .nan then null else real value

/-- The number at the front of a text: an integer unless it has a point or an exponent or is too
large. -/
def frontNumber (t : Text) : Cell :=
  let front := Numeral.frontOf t
  if front.isEmpty then integer 0
  else
    match wholeNumber? front with
    | some i => integer i
    | none => ((Numeral.ofDecimal? front).map real).getD (integer 0)

def numeric : Cell → Cell
  | text t | blob t => frontNumber t
  | cell => cell

def realNumber (cell : Cell) : Numeral :=
  match cell.numeric with
  | integer value => .ofInt value.toInt
  | real value => value
  | _ => .finite false 0 0

def truth? : Cell → Option Bool
  | null => none
  | integer value => some (value != 0)
  | cell => some !cell.realNumber.isZero

def isTrue (cell : Cell) : Bool := cell.truth? == some true

def ofBool (b : Bool) : Cell := integer (if b then 1 else 0)

def ofTruth : Option Bool → Cell
  | none => null
  | some b => ofBool b

def fits? (i : Int) : Option Cell :=
  if int64Min ≤ i ∧ i ≤ int64Max then some (integer (Int64.ofInt i)) else none

def onIntegers? (operation : Operation) (a b : Int) : Option Cell :=
  match operation with
  | .plus => fits? (a + b)
  | .minus => fits? (a - b)
  | .times => fits? (a * b)
  | .over => if b = 0 then some null else fits? (Int.tdiv a b)
  | .modulo => if b = 0 then some null else fits? (Int.tmod a b)

def onReals (operation : Operation) (a b : Numeral) : Cell :=
  match operation with
  | .plus => ofFinite (a.add b)
  | .minus => ofFinite (a.add b.negate)
  | .times => ofFinite (a.mul b)
  | .over => if b.isZero then null else ofFinite (a.div b)
  | .modulo => null

def calculate (operation : Operation) (a b : Cell) : Cell :=
  if a.isNull || b.isNull then null
  else
    match a.numeric, b.numeric with
    | integer x, integer y =>
        (onIntegers? operation x.toInt y.toInt).getD
          (onReals operation (.ofInt x.toInt) (.ofInt y.toInt))
    | _, _ =>
        if operation = .modulo then
          match onIntegers? .modulo a.number.toInt b.number.toInt with
          | some rest => rest.asReal
          | none => null
        else onReals operation a.realNumber b.realNumber

def joined (a b : Cell) : Cell := if a.isNull || b.isNull then null else text (a.shown ++ b.shown)

/-- Shifts to the left by a number of bits, or to the right by a negative one. -/
def shifted (value : Int64) (places : Int) : Int64 :=
  if 0 ≤ places then
    if 64 ≤ places then 0 else Int64.ofInt (value.toInt * (Nat.pow 2 places.toNat : Nat))
  else if places ≤ -64 then if value < 0 then -1 else 0
  else Int64.ofInt (value.toInt / (Nat.pow 2 (-places).toNat : Nat))

def onBits (f : Int64 → Int64 → Int64) (a b : Cell) : Cell :=
  if a.isNull || b.isNull then null else integer (f a.number b.number)

/-- A cell turned into what a type asks for, whatever is lost. -/
def cast (affinity : Affinity) (cell : Cell) : Cell :=
  if cell.isNull then null
  else
    match affinity with
    | .blob => blob cell.shown
    | .text => text cell.shown
    | .integer => integer cell.number
    | .real => real cell.realNumber
    | .numeric => cell.numeric

end Cell
end CodeAudit
