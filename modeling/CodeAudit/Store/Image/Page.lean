import CodeAudit.Store.Image.Octets
import CodeAudit.Store.Relation
import CodeAudit.Text.Unicode

/-!
Pages of a file and the trees that they make. A page lists cells; the cells of a leaf hold records,
those of other pages point to the pages below. What of a record does not fit into its page goes on
in pages of its own. Pages count from one, and the first one begins behind a heading of a hundred
bytes.
-/
namespace CodeAudit

structure Pages where
  bytes : Octets
  size : Nat
  /-- The bytes of a page less those that are set aside at its end. -/
  usable : Nat
  count : Nat

namespace Pages

/-- A power of two from 512 to 65536. -/
def isSize (n : Nat) : Bool := ((List.range 8).map (512 <<< ·)).contains n

def byte (pages : Pages) (position : Nat) : Nat := pages.bytes.octet position

def number (pages : Pages) (width position : Nat) : Nat := pages.bytes.number width position

def start (pages : Pages) (page : Nat) : Nat := (page - 1) * pages.size

/-- Where the list of cells of a page is described. -/
def header (pages : Pages) (page : Nat) : Nat := pages.start page + if page = 1 then 100 else 0

def kind (pages : Pages) (page : Nat) : Nat := pages.byte (pages.header page)

def cellCount (pages : Pages) (page : Nat) : Nat := pages.number 2 (pages.header page + 3)

/-- A leaf is described in eight bytes, another page in twelve. -/
def isLeaf (pages : Pages) (page : Nat) : Bool := 8 ≤ pages.kind page

def cellsStart (pages : Pages) (page : Nat) : Nat := if pages.isLeaf page then 8 else 12

/-- The positions of the cells of a page; nothing if it lists more than it can hold. -/
def cells? (pages : Pages) (page : Nat) : Option (List Nat) :=
  let count := pages.cellCount page
  if (pages.size - 8) / 6 < count then none
  else
    some ((List.range count).map (fun i =>
      pages.start page + pages.number 2 (pages.header page + pages.cellsStart page + 2 * i) %
        pages.size))

/-- A number of seven bits a byte, of which all but the last one have the high bit; a ninth byte
brings eight. The answer tells also where it ends. -/
def sevensFrom (pages : Pages) : Nat → Nat → Nat → Nat × Nat
  | 0, n, position => (n * 256 + pages.byte position, position + 1)
  | fuel + 1, n, position =>
      let b := pages.byte position
      if b < 128 then (n * 128 + b, position + 1)
      else sevensFrom pages fuel (n * 128 + (b - 128)) (position + 1)

def sevens (pages : Pages) (position : Nat) : Nat × Nat := pages.sevensFrom 8 0 position

/-- How many bytes of a record stay in its page. -/
def localSize (pages : Pages) (inTable : Bool) (size : Nat) : Nat :=
  let most := if inTable then pages.usable - 35 else (pages.usable - 12) * 64 / 255 - 23
  let least := (pages.usable - 12) * 32 / 255 - 23
  if size ≤ most then size
  else
    let wanted := least + (size - least) % (pages.usable - 4)
    if wanted ≤ most then wanted else least

def slice (pages : Pages) (position length : Nat) : Text := pages.bytes.slice position length

/-- The bytes of a record in the pages that it goes on in, as far as they can be followed. The file
has no more pages than rounds are made. -/
def overflow (pages : Pages) : Nat → Nat → Nat → Text
  | _, _, 0 => []
  | 0, _, _ => []
  | fuel + 1, page, size =>
      if page < 2 ∨ pages.count < page then []
      else
        let here := min size (pages.usable - 4)
        pages.slice (pages.start page + 4) here ++
          overflow pages fuel (pages.number 4 (pages.start page)) (size - here)

/-- A record: the size that is told of it, and the bytes of it that can be read. -/
structure Record where
  size : Nat
  bytes : Text

/-- The record of a size that begins at a position in a page. -/
def recordAt (pages : Pages) (inTable : Bool) (page position size : Nat) : Record :=
  let here := pages.localSize inTable size
  let pageEnd := pages.start page + pages.size
  if pageEnd < position + here then { size, bytes := pages.slice position (pageEnd - position) }
  else
    { size
      bytes := pages.slice position here ++
        pages.overflow pages.count (pages.number 4 (position + here)) (size - here) }

/-- What a reader comes across in a tree. -/
inductive Find where
  /-- A record under the number of its row. -/
  | entry (number : Int64) (record : Record)
  | gap (gap : Gap)

namespace Find

def record? : Find → Option (Int64 × Record)
  | .entry number record => some (number, record)
  | .gap _ => none

def gap? : Find → Option Gap
  | .entry _ _ => none
  | .gap stretch => some stretch

end Find

def leafEntry (pages : Pages) (inTable : Bool) (page position : Nat) : Find :=
  let (size, position) := pages.sevens position
  if inTable then
    let (number, position) := pages.sevens position
    .entry (Int64.ofNat number) (pages.recordAt true page position size)
  else .entry 0 (pages.recordAt false page position size)

/-- The cells of a page that belongs to a tree. Only the root may have none, if it is a leaf or the
first page. -/
def treeCells? (pages : Pages) (inTable isRoot : Bool) (page : Nat) : Option (List Nat) :=
  if page = 0 ∨ pages.count < page then none
  else if pages.kind page ≠ (if inTable then 5 else 2) + (if pages.isLeaf page then 8 else 0) then
    none
  else
    (pages.cells? page).filter (fun cells => !cells.isEmpty ||
      (isRoot && (pages.isLeaf page || page == 1)))

/-- What is found in the tree under a page, from left to right. The page is there for a stretch of
numbers, which is a gap if the page cannot be read or stands above itself. Trees are at most twenty
pages high. -/
def findsBelow (pages : Pages) (inTable : Bool) : Nat → List Nat → Nat → Gap → List Find
  | 0, _, _, stretch => [.gap stretch]
  | fuel + 1, above, page, stretch =>
      match if above.contains page then none else pages.treeCells? inTable above.isEmpty page with
      | none => [.gap stretch]
      | some cells =>
          if pages.isLeaf page then cells.map (pages.leafEntry inTable page)
          else
            let below (child : Nat) (stretch : Gap) : List Find :=
              findsBelow pages inTable fuel (page :: above) child stretch
            let (found, start) :=
              cells.foldl (fun ((found, start) : List (List Find) × Option Int64) position =>
              let child := pages.number 4 position
              if inTable then
                let key := Int64.ofNat (pages.sevens (position + 4)).1
                (below child { above := start, upTo := some key } :: found, some key)
              else ([pages.leafEntry false page (position + 4)] :: below child {} :: found, none))
              ([], stretch.above)
            found.reverse.flatten ++
              below (pages.number 4 (pages.header page + 8))
                { above := start, upTo := stretch.upTo }

/-- What is found in the tree that starts at a page. -/
def finds (pages : Pages) (inTable : Bool) (root : Nat) : List Find :=
  pages.findsBelow inTable 20 [] root {}

/-- The free stretches of a page: each tells where the next one is and how long it is itself. They
are in order, apart from each other and inside the page. The answer is the sum of their lengths. -/
def freeStretches? (pages : Pages) (page : Nat) : Nat → Nat → Option Nat
  | 0, _ => none
  | fuel + 1, position =>
      if pages.usable < position + 4 then none
      else
        let next := pages.number 2 (pages.start page + position)
        let length := pages.number 2 (pages.start page + position + 2)
        if position + length + 3 < next then (freeStretches? pages page fuel next).map (length + ·)
        else if next ≠ 0 ∨ pages.usable < position + length then none
        else some length

/-- Where the contents of a page start, zero meaning the largest size. -/
def contentsStart (pages : Pages) (page : Nat) : Nat :=
  let start := pages.number 2 (pages.header page + 5)
  if start = 0 then 65536 else start

def fragments (pages : Pages) (page : Nat) : Nat := pages.byte (pages.header page + 7)

/-- The lengths of the free stretches of a page, of which the first one may not lie before its
contents. -/
def stretches? (pages : Pages) (page : Nat) : Option Nat :=
  let first := pages.number 2 (pages.header page + 1)
  if first = 0 then some 0
  else if first < pages.contentsStart page then none
  else pages.freeStretches? page pages.size first

/-- The free space of a page adds up. -/
def hasSoundSpace (pages : Pages) (page : Nat) : Bool :=
  match pages.stretches? page with
  | none => false
  | some stretches =>
      let free := pages.fragments page + pages.contentsStart page + stretches
      let listEnd := pages.header page - pages.start page + pages.cellsStart page + 2 *
        pages.cellCount page
      listEnd ≤ free && free ≤ pages.usable

end Pages

/-! Records: a description of the size and kind of each value, and the values. -/

namespace Cell

/-- A number of seven bits a byte at the front of a text. -/
def sevensOf : Nat → Nat → Text → Option (Nat × Text)
  | _, _, [] => none
  | 0, n, b :: rest => some (n * 256 + b.toNat, rest)
  | fuel + 1, n, b :: rest =>
      if b < 128 then some (n * 128 + b.toNat, rest)
      else sevensOf fuel (n * 128 + (b.toNat - 128)) rest

def ofBytes (t : Text) : Nat := t.foldl (fun n b => n * 256 + b.toNat) 0

/-- A signed number of some bytes. -/
def signed (t : Text) : Int64 :=
  let n : Int := ofBytes t
  let modulus : Int := Nat.pow 256 t.length
  Int64.ofInt (if 2 * n < modulus then n else n - modulus)

/-- How many bytes a value of a kind takes. -/
def widthOf (kind : Nat) : Nat :=
  if kind ≤ 4 then kind
  else if kind = 5 then 6
  else if kind ≤ 7 then 8
  else if kind < 12 then 0
  else (kind - 12) / 2

def ofKind (encoding : TextEncoding) (kind : Nat) (t : Text) : Cell :=
  if kind = 0 then null
  else if kind ≤ 6 then integer (signed t)
  else if kind = 7 then ofReal (Numeral.ofBits? (ofBytes t))
  else if kind = 8 then integer 0
  else if kind = 9 then integer 1
  else if kind < 12 then null
  else if kind % 2 = 0 then blob t
  else text (encoding.decode t)

end Cell

/-- What can be read of the values of a record. -/
structure Fields where
  /-- The values that the record tells of, if they can be read. -/
  cells : List (Option Cell) := []
  /-- All that the record tells of has been found. -/
  isWhole : Bool := true

namespace Pages.Record

/-- The values from a position in the description on, where the bytes of the next one start at an
offset. The description ends where the values start, and the last value where the record ends. -/
def fieldsFrom (record : Record) (encoding : TextEncoding) (described : Nat) :
    Nat → Nat → Nat → Fields
  | 0, _, _ => { isWhole := false }
  | fuel + 1, position, offset =>
      if described ≤ position then {}
      else
        match Cell.sevensOf 8 0 (record.bytes.drop position) with
        | none => { isWhole := false }
        | some (kind, rest) =>
            let position := record.bytes.length - rest.length
            let width := Cell.widthOf kind
            let next := offset + width
            if described < position || (described == position && next != record.size) ||
              record.size < next then
              { isWhole := false }
            else
              let fields := fieldsFrom record encoding described fuel position next
              let cell :=
                if width = 0 ∨ next ≤ record.bytes.length then
                  some (Cell.ofKind encoding kind ((record.bytes.drop offset).take width))
                else none
              { fields with cells := cell :: fields.cells }

/-- The values of the record. -/
def fields (record : Record) (encoding : TextEncoding) : Fields :=
  match Cell.sevensOf 8 0 record.bytes with
  | none => { isWhole := false }
  | some (described, rest) =>
      let position := record.bytes.length - rest.length
      if position < described ∧ record.bytes.length < described then { isWhole := false }
      else record.fieldsFrom encoding described described position described

end Pages.Record
end CodeAudit
