import CodeAudit.Fault
import CodeAudit.Store.Relation.Format
import CodeAudit.Store.Relation.Pattern

/-!
Functions about texts and bytes: their length and parts, what stands where in them, and other ways
to write them.
-/
namespace CodeAudit
namespace Function

def ofText? (f : Text → Text) (cell : Cell) : Cell :=
  if cell.isNull then .null else .text (f cell.shown)

def length : Cell → Cell
  | .null => .null
  | cell => .integer (Int64.ofNat cell.units.length)

/-- Where a text begins in another one, counted in units from one. -/
def position (inside sought : List Text) : Nat :=
  ((List.range (inside.length + 1)).find? (fun n => sought.isPrefixOf (inside.drop n))).elim 0
    (· + 1)

def find (inside sought : Cell) : Cell :=
  if inside.isNull || sought.isNull then .null
  else
    match inside, sought with
    | .blob a, .blob b =>
        .integer (Int64.ofNat (position (a.map (fun x => [x])) (b.map (fun x => [x]))))
    | a, b => .integer (Int64.ofNat (position (characters a.shown) (characters b.shown)))

/-- Some units from a place, which counts from one, or from the end if it is negative. A negative
number of them are those before the place. -/
def slice (cell : Cell) (start : Int) (count : Option Int) : Cell :=
  let all := cell.units
  let size : Int := all.length
  let first : Int := if start < 0 then size + start else if start = 0 then 0 else start - 1
  let wanted : Int := (count.getD (size + 1))
  let wanted : Int := if start = 0 ∧ count.isSome ∧ 0 < wanted then wanted - 1 else wanted
  let (low, high) : Int × Int := if wanted < 0 then (first + wanted, first)
    else (first, first + wanted)
  let low := max low 0
  let high := max high low
  cell.ofUnits ((all.drop low.toNat).take (high - low).toNat)

def part (cell start : Cell) (count : Option Cell) : Cell :=
  if cell.isNull || start.isNull || count.any Cell.isNull then .null
  else slice cell (Format.small start) (count.map Format.small)

def replaceAll (needle replacement : Text) : Nat → Text → Text
  | 0, t => t
  | fuel + 1, t =>
      match t with
      | [] => []
      | b :: rest =>
          if needle.isPrefixOf t then replacement ++ replaceAll needle replacement fuel
            (t.drop needle.length)
          else b :: replaceAll needle replacement fuel rest

def replaced (cell sought replacement : Cell) : Cell :=
  if cell.isNull || sought.isNull then .null
  else if sought.shown.beforeNul.isEmpty then cell
  else if replacement.isNull then .null
  else .text (replaceAll sought.shown replacement.shown cell.shown.length cell.shown)

def strip (front back : Bool) (characterSet : Option Cell) (cell : Cell) : Cell :=
  if cell.isNull || characterSet.any Cell.isNull then .null
  else
    let dropped := characters ((characterSet.map (fun cell => cell.shown.beforeNul)).getD [32])
    let drop (units : List Text) : List Text := units.dropWhile dropped.contains
    let units := characters cell.shown
    let units := if front then drop units else units
    let units := if back then (drop units.reverse).reverse else units
    .text units.flatten

def upperHex (bytes : Text) : Text := (bytes.flatMap Text.ofByte).map upperByte

/-- A real that is read as it was. Fifteen digits are enough for most. -/
def quotedReal (value : Numeral) : Text :=
  if Numeral.ofDecimal? value.print == some value then value.print
  else
    let (sign, figures) := Figures.write { style := .power, precision := 20, isLong := true } value
    sign ++ figures

def quoted : Cell → Text
  | .null => utf8 "NULL"
  | .text t => [39] ++ t.beforeNul.flatMap (fun b => if b = 39 then [39, 39] else [b]) ++ [39]
  | .blob bytes => utf8 "X'" ++ upperHex bytes ++ [39]
  | .real value => quotedReal value
  | cell => cell.shown

def firstPoint (cell : Cell) : Cell :=
  ((cell.shown.beforeNul.points.head?).map (fun n => .integer (Int64.ofNat n))).getD .null

def ofPoints (cells : List Cell) : Cell :=
  .text (cells.flatMap (fun cell =>
    let n := cell.number.toInt
    Text.ofPoint (if n < 0 ∨ 0x10FFFF < n then 0xFFFD else n.toNat)))

/-- The group of consonants that a letter belongs to; vowels belong to none. -/
def soundOf (b : UInt8) : Nat :=
  let groups : List String := ["bfpv", "cgjkqsxz", "dt", "l", "mn", "r"]
  (groups.findIdx? (fun group => (utf8 group).contains (lowerByte b))).elim 0 (· + 1)

/-- The sounds of a text, without those that repeat the one right before. -/
def soundsFrom (before : Nat) : Text → List Nat
  | [] => []
  | b :: rest =>
      let sound := soundOf b
      if sound = 0 ∨ sound = before then soundsFrom sound rest else sound :: soundsFrom sound rest

/-- The first letter of a text and three of its sounds. -/
def soundex (cell : Cell) : Cell :=
  match cell.shown.beforeNul.dropWhile (fun b => !isLetterByte b) with
  | [] => .text (utf8 "?000")
  | b :: rest =>
      let sounds := (soundsFrom (soundOf b) (b :: rest)).take 3
      .text (upperByte b :: sounds.map (fun n => 48 + n.toUInt8) ++
        List.replicate (3 - sounds.length) 48)

def zeros (count : Cell) : Except EngineFault Cell :=
  let count := count.number.toNatClampNeg
  if Format.room < count then .error .tooBig else .ok (.blob (List.replicate count 0))

def longestPattern : Nat := 50000

def like (isGlob : Bool) (pattern cell : Cell) (mark : Option Cell) : Except EngineFault Cell :=
  let isBlob (cell : Cell) : Bool := cell matches .blob _
  if isBlob pattern || isBlob cell then .ok (.integer 0)
  else if longestPattern < pattern.shown.length then .error .patternTooLong
  else
    let held (mark : Option Nat) : Cell :=
      if pattern.isNull || cell.isNull then .null
      else .ofBool
        (if isGlob then Pattern.isGlob pattern.shown cell.shown
          else Pattern.isLike mark pattern.shown cell.shown)
    match mark with
    | none => .ok (held none)
    | some .null => .ok .null
    | some mark =>
        match mark.shown.beforeNul.points with
        | [n] => .ok (held (some n))
        | _ => .error .badMark

end Function
end CodeAudit
