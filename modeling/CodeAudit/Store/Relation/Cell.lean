import CodeAudit.Fault
import CodeAudit.Store.Relation.Figures

/-!
What a row holds in a column: nothing, a number, a text or bytes. A column prefers one of them, and
what is put there is turned into it if nothing is lost.
-/
namespace CodeAudit

inductive Cell where
  | null
  | integer (value : Int64)
  | real (value : Numeral)
  | text (value : Text)
  | blob (bytes : Text)
deriving DecidableEq, Repr

/-- What a column prefers to hold. -/
inductive Affinity where
  | blob | text | numeric | integer | real
deriving DecidableEq, Repr

/-- How texts are compared: as they are, without regard to the case of letters, or without spaces at
the end. -/
inductive Collation where
  | binary | nocase | rtrim
  /-- In a way that nobody knows. -/
  | unknown (name : Text)
deriving DecidableEq, Repr

namespace Collation

def ofName (name : Text) : Collation :=
  if name.lower = utf8 "binary" then .binary
  else if name.lower = utf8 "nocase" then .nocase
  else if name.lower = utf8 "rtrim" then .rtrim
  else .unknown name

/-- Why texts cannot be compared. -/
def fault? : Collation → Option EngineFault
  | unknown name => some (.noCollation name)
  | _ => none

def key : Collation → Text → Text
  | binary, t | unknown _, t => t
  | nocase, t => t.lower
  | rtrim, t => (t.reverse.dropWhile (· == 32)).reverse

end Collation

namespace Cell

def int64Max : Int := 0x7FFFFFFFFFFFFFFF

def int64Min : Int := -0x8000000000000000

/-- The nearest integer of 64 bits. -/
def clamp (i : Int) : Int64 := Int64.ofInt (max int64Min (min int64Max i))

def ofReal : Option Numeral → Cell
  | some value => real value
  | none => null

def isNull : Cell → Bool
  | null => true
  | _ => false

def typeName : Cell → String
  | null => "null"
  | integer _ => "integer"
  | real _ => "real"
  | text _ => "text"
  | blob _ => "blob"

def shown : Cell → Text
  | null => []
  | integer value => Text.ofInt value.toInt
  | real value => value.print
  | text value => value
  | blob bytes => bytes

def leadingInteger (t : Text) : Int64 :=
  let digits (t : Text) : Int := ((Document.ofDigits? 10 (t.takeWhile isDigitByte)).getD 0 : Nat)
  match t.dropWhile isBlankByte with
  | 45 :: rest => clamp (-digits rest)
  | 43 :: rest => clamp (digits rest)
  | rest => clamp (digits rest)

def number : Cell → Int64
  | null => 0
  | integer value => value
  | real value => clamp value.truncate
  | text value => leadingInteger value
  | blob bytes => leadingInteger bytes

def exactInteger? (value : Numeral) : Option Int64 :=
  match value.integer? with
  | some i => if int64Min < i ∧ i < int64Max then some (Int64.ofInt i) else none
  | none => none

def ofNumeral (value : Numeral) : Cell := ((exactInteger? value).map integer).getD (real value)

/-- The digits of an integer that 64 bits hold, between blanks and after a sign. -/
def wholeNumber? (t : Text) : Option Int64 :=
  let digits (t : Text) : Option Int := (Document.ofDigits? 10 t).map Int.ofNat
  let value : Option Int :=
    match t.trim with
    | 45 :: rest => (digits rest).map (- ·)
    | 43 :: rest => digits rest
    | rest => digits rest
  match value with
  | some i => if int64Min ≤ i ∧ i ≤ int64Max then some (Int64.ofInt i) else none
  | none => none

def ofNumericText (t : Text) : Cell :=
  match wholeNumber? t with
  | some i => integer i
  | none => ((Numeral.ofDecimal? t).map ofNumeral).getD (text t)

def asReal : Cell → Cell
  | integer value => real (.ofQuotient (value.toInt < 0) value.toInt.natAbs 1)
  | other => other

/-- What a column holds once a cell is put there. -/
def prefer : Affinity → Cell → Cell
  | .blob, cell => cell
  | .text, cell =>
      match cell with
      | integer _ | real _ => text cell.shown
      | other => other
  | .numeric, cell | .integer, cell =>
      match cell with
      | text value => ofNumericText value
      | real value => ofNumeral value
      | other => other
  | .real, cell =>
      match cell with
      | text value => (ofNumericText value).asReal
      | other => other.asReal

/-- Nothing comes before numbers, numbers before texts, and texts before bytes. -/
def rank : Cell → Nat
  | null => 0
  | integer _ | real _ => 1
  | text _ => 2
  | blob _ => 3

def numeral : Cell → Numeral
  | integer value => .finite (value.toInt < 0) value.toInt.natAbs 0
  | real value => value
  | _ => .nan

def compareTexts (a b : Text) : Ordering := if a < b then .lt else if b < a then .gt else .eq

def compareTo (collation : Collation) (a b : Cell) : Ordering :=
  match a, b with
  | text a, text b => compareTexts (collation.key a) (collation.key b)
  | blob a, blob b => compareTexts a b
  | a, b =>
      if a.rank = 1 ∧ b.rank = 1 then a.numeral.compareTo b.numeral else compare a.rank b.rank

def equals (collation : Collation) (a b : Cell) : Bool :=
  !a.isNull && !b.isNull && a.compareTo collation b == .eq

end Cell
end CodeAudit
