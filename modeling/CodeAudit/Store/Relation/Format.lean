import CodeAudit.Store.Relation.Units

/-!
Formats: texts with places that cells are put in. A place tells how its cell is written, and how
wide it is; both may be left to other cells. What cannot be read as a place ends the format.
-/
namespace CodeAudit

namespace Format

/-- A number that is told in a format, or by the next cell. -/
inductive Measure where
  | told (n : Nat)
  | next
deriving DecidableEq, Repr

inductive Style where
  | signed | unsigned | ordinal
  /-- Digits of a base, which something may stand before. -/
  | radix (base : Nat) (upper : Bool) (mark : Text)
  | real (style : Figures.Style) (mark : UInt8)
  | text
  | character
  /-- A text with a quote written twice in it, and perhaps with quotes around it. -/
  | escaped (quote : UInt8) (encloses : Bool)
  /-- No cell: a percent sign, or nothing at all. -/
  | percent | nothing
deriving DecidableEq, Repr

structure Place where
  style : Style
  width : Measure := .told 0
  precision : Option Measure := none
  isLeft : Bool := false
  /-- What stands before a number that is not negative, if anything. -/
  sign : Text := []
  isAlternate : Bool := false
  /-- Texts are counted in characters, and more digits of reals are written. -/
  isLong : Bool := false
  zeros : Bool := false
  groups : Bool := false
deriving DecidableEq, Repr

inductive Piece where
  | literal (t : Text)
  | place (place : Place)
deriving DecidableEq, Repr

def styleOf? (letter : UInt8) : Option Style :=
  let table : List (String × Style) :=
    [("d", .signed), ("i", .signed), ("u", .unsigned), ("r", .ordinal),
      ("x", .radix 16 false (utf8 "0x")), ("X", .radix 16 true (utf8 "0X")),
        ("o", .radix 8 true (utf8 "0")),
      ("p", .radix 16 true (utf8 "0x")),
      ("f", .real .places 101), ("e", .real .power 101), ("E", .real .power 69),
        ("g", .real .bySize 101),
      ("G", .real .bySize 69),
      ("s", .text), ("z", .text), ("c", .character), ("q", .escaped 39 false),
        ("Q", .escaped 39 true),
      ("w", .escaped 34 false), ("%", .percent), ("n", .nothing)]
  (table.find? (fun (name, _) => utf8 name = [letter])).map Prod.snd

/-- The flags in front of a place. The last sign that is told counts. -/
def withFlags (place : Place) : Text → Place × Text
  | b :: rest =>
      if b = 45 then withFlags { place with isLeft := true } rest
      else if b = 43 ∨ b = 32 then withFlags { place with sign := [b] } rest
      else if b = 35 then withFlags { place with isAlternate := true } rest
      else if b = 33 then withFlags { place with isLong := true } rest
      else if b = 48 then withFlags { place with zeros := true } rest
      else if b = 44 then withFlags { place with groups := true } rest
      else (place, b :: rest)
  | [] => (place, [])

/-- A number of digits, or a star for the next cell. Thirty-one bits of the number count. -/
def measureAt (t : Text) : Measure × Text :=
  match t with
  | 42 :: rest => (.next, rest)
  | t =>
      let digits := t.takeWhile isDigitByte
      (.told ((Document.ofDigits? 10 digits).getD 0 % 2147483648), t.drop digits.length)

/-- A place after its percent sign, and what follows. -/
def placeAt? (t : Text) : Option (Place × Text) :=
  let (place, t) := withFlags { style := .nothing } t
  let (width, t) := measureAt t
  let (precision, t) : Option Measure × Text :=
    match t with
    | 46 :: rest => ((measureAt rest).map some id)
    | t => (none, t)
  let t : Text :=
    match t with
    | 108 :: 108 :: rest => rest
    | 108 :: rest => rest
    | t => t
  match t with
  | [] => none
  | letter :: rest => (styleOf? letter).map
      (fun style => ({ place with style, width, precision }, rest))

/-- The pieces of a format. Every round takes a byte, so its length bounds them. -/
def pieces : Nat → Text → List Piece
  | 0, _ => []
  | fuel + 1, t =>
      match t with
      | [] => []
      | [37] => [.literal [37]]
      | 37 :: rest =>
          match placeAt? rest with
          | some (place, rest) => .place place :: pieces fuel rest
          | none => []
      | t =>
          let literal := t.takeWhile (· != 37)
          .literal literal :: pieces fuel (t.drop literal.length)

/-- A place whose measures are known. -/
structure Extent where
  width : Nat
  precision : Option Nat
  isLeft : Bool

/-- Thirty-two bits of a number, the first of them for its sign. -/
def small (cell : Cell) : Int := Int.bmod cell.number.toInt 4294967296

/-- The extent of a place, and the cells that are left. A negative width is one for the left
side. -/
def extentOf (place : Place) (cells : List Cell) : Extent × List Cell :=
  let next (cells : List Cell) : Int := small (cells.head?.getD .null)
  let (width, isLeft, cells) : Nat × Bool × List Cell :=
    match place.width with
    | .told n => (n, place.isLeft, cells)
    | .next =>
        let n := next cells
        (if n = -2147483648 then 0 else n.natAbs, place.isLeft || n < 0, cells.drop 1)
  match place.precision with
  | none => ({ width, precision := none, isLeft }, cells)
  | some (.told n) => ({ width, precision := some n, isLeft }, cells)
  | some .next =>
      let n := next cells
      ({ width, precision := if n = -2147483648 then none else some n.natAbs, isLeft },
        cells.drop 1)

namespace Extent

def pad (extent : Extent) (t : Text) : Text :=
  let blanks := List.replicate (extent.width - t.length) 32
  if extent.isLeft then t ++ blanks else blanks ++ t

/-- Fills a text up to the width, which may be counted in characters. -/
def padText (extent : Extent) (inCharacters : Bool) (t : Text) : Text :=
  let extra := if inCharacters && 0 < extent.width then
    (t.filter (fun b => 128 ≤ b && b < 192)).length else 0
  { extent with width := extent.width + extra }.pad t

def front (extent : Extent) (inCharacters : Bool) (t : Text) : Text :=
  match extent.precision with
  | none => t
  | some n => if inCharacters then ((characters t).take n).flatten else t.take n

end Extent

def digitsIn (base : Nat) (upper : Bool) (n : Nat) : Text :=
  (Nat.toDigits base n).map (fun c => if upper then upperByte c.toNat.toUInt8 else c.toNat.toUInt8)

def ordinalEnd (n : Nat) : Text :=
  let last := n % 10
  if 4 ≤ last ∨ n / 10 % 10 = 1 ∨ last = 0 then utf8 "th"
  else utf8 (if last = 1 then "st" else if last = 2 then "nd" else "rd")

/-- Writes digits after a sign, with zeros in front of them up to the precision. -/
def writeDigits (place : Place) (extent : Extent) (sign mark digits : Text) (groups : Bool) :
    Text :=
  let least := max (extent.precision.getD 0) (if place.zeros then extent.width - sign.length else 0)
  let digits := List.replicate (least - digits.length) 48 ++ digits
  extent.pad (mark ++ sign ++ if groups then Figures.grouped digits else digits)

def writeInteger (place : Place) (extent : Extent) (style : Style) (value : Int64) : Text :=
  let sign : Text := if value < 0 then [45] else place.sign
  let size := value.toInt.natAbs
  match style with
  | .unsigned => writeDigits place extent [] [] (digitsIn 10 false value.toUInt64.toNat)
      place.groups
  | .ordinal => writeDigits place extent sign [] (digitsIn 10 false size ++ ordinalEnd size) false
  | .radix base upper mark =>
      writeDigits place extent [] (if place.isAlternate && value != 0 then mark else [])
        (digitsIn base upper value.toUInt64.toNat) false
  | _ => writeDigits place extent sign [] (digitsIn 10 false size) place.groups

def writeReal (place : Place) (extent : Extent) (style : Figures.Style) (mark : UInt8)
    (value : Numeral) : Text :=
  let (sign, figures) := Figures.write
    { style, mark, precision := min (extent.precision.getD 6) 100000000,
      keepsPoint := place.isAlternate
      isLong := place.isLong, groups := place.groups, sign := place.sign } value
  let zeros := if place.zeros && !extent.isLeft && value.isFinite then
    extent.width - sign.length - figures.length else 0
  extent.pad (sign ++ List.replicate zeros 48 ++ figures)

/-- The first character of a text as often as the precision tells; a NUL for no text at all. -/
def writeCharacter (extent : Extent) (t : Text) : Text :=
  let first : Text := if t.isEmpty then [0] else ((characters t).head?.getD []).take 4
  let count := max 1 (extent.precision.getD 0)
  let blanks := List.replicate (extent.width - count) 32
  let all := (List.replicate count first).flatten
  if extent.isLeft then all ++ blanks else blanks ++ all

def writeEscaped (place : Place) (extent : Extent) (quote : UInt8) (encloses : Bool)
    (t : Option Text) : Text :=
  let missing := utf8 (if encloses then "NULL" else "(NULL)")
  let inside := (extent.front place.isLong (t.getD missing)).flatMap
    (fun b => if b = quote then [b, b] else [b])
  extent.padText place.isLong (if encloses && t.isSome then [quote] ++ inside ++ [quote]
    else inside)

def textOf? (cell : Cell) : Option Text := if cell.isNull then none else some cell.shown.beforeNul

def writePlace (place : Place) (cells : List Cell) : Text × List Cell :=
  let (extent, cells) := extentOf place cells
  let cell := cells.head?.getD .null
  let t := textOf? cell
  match place.style with
  | .real style mark => (writeReal place extent style mark cell.realNumber, cells.drop 1)
  | .text => (extent.padText place.isLong (extent.front place.isLong (t.getD [])), cells.drop 1)
  | .character => (writeCharacter extent (t.getD []), cells.drop 1)
  | .escaped quote encloses => (writeEscaped place extent quote encloses t, cells.drop 1)
  | .percent => (extent.pad [37], cells)
  | .nothing => ([], cells)
  | style => (writeInteger place extent style cell.number, cells.drop 1)

/-- The size that no text passes. -/
def room : Nat := 1000000000

def isTooWide (place : Place) (cells : List Cell) : Bool :=
  let (extent, _) := extentOf place cells
  let isNumber :=
    match place.style with
    | .signed | .unsigned | .ordinal | .radix _ _ _ | .character => true
    | _ => false
  room < extent.width || (isNumber && room < extent.precision.getD 0)

/-- Writes pieces one after the other, unless they are too wide. -/
def writeAll : List Piece → List Cell → Option Text
  | [], _ => some []
  | .literal t :: rest, cells => (writeAll rest cells).map (t ++ ·)
  | .place place :: rest, cells =>
      if isTooWide place cells then none
      else
        let (t, cells) := writePlace place cells
        (writeAll rest cells).map (t ++ ·)

/-- Puts cells into a format. A format without any piece gives nothing. -/
def write (format : Text) (cells : List Cell) : Cell :=
  match pieces (format.length + 1) format.beforeNul with
  | [] => .null
  | pieces => ((writeAll pieces cells).map Cell.text).getD .null

/-- The first cell as a format, with the others put into it. -/
def ofCells : List Cell → Cell
  | [] => .null
  | format :: cells => if format.isNull then .null else write format.shown cells

end Format
end CodeAudit
