import CodeAudit.Store.Image.FirstPage
import CodeAudit.Store.Image.Page
import CodeAudit.Store.Relation.Declaration

/-!
Files as bytes. The first hundred bytes of a file tell the format and the size of its pages, and the
tree under the first page is the catalog of what the file holds. A file is refused for the first
fault that a reader meets.
-/
namespace CodeAudit

/-- What the bytes of a file are read as. -/
structure Image where
  content : Except EngineFault Database := .ok {}
  /-- The file keeps a write-ahead log. -/
  logged : Bool := false
  /-- The file is of a format that may not be written. -/
  frozen : Bool := false
  /-- Nothing can be added to the catalog. -/
  spoiled : Bool := false

namespace Image

def signature : Text := utf8 "SQLite format 3" ++ [0]

/-! The catalog. -/

/-- The catalog as far as it has been read: tables with the pages where they start, and what else
there is. -/
structure Reading where
  tables : List (Relation × Nat) := []
  entries : List CatalogEntry := []
  views : List Facade := []
  indexPages : List IndexPage := []

namespace Reading

def isTasks (name : Text) : Bool := name.lower == utf8 Relation.tasksName

def addEntry (reading : Reading) (entry : CatalogEntry) : Reading :=
  { reading with entries := reading.entries ++ [entry] }

def addPage (reading : Reading) (page : IndexPage) : Reading :=
  { reading with indexPages := page :: reading.indexPages }

/-- Changes the table of a name. -/
def mapTable (reading : Reading) (name : Text) (change : Relation → Relation) : Reading :=
  { reading with
    tables := reading.tables.map (fun (table, root) =>
      (if table.name.lower = name.lower then change table else table, root)) }

/-- Adds a trigger to the table or the view that it belongs to. -/
def addTrigger (reading : Reading) (owner : Text) (trigger : Trigger) : Reading :=
  let reading :=
    reading.mapTable owner (fun relation =>
      { relation with triggers := trigger :: relation.triggers })
  { reading with
    views := reading.views.map (fun facade =>
      if View.isNamed owner facade.view then { facade with triggers := trigger :: facade.triggers }
      else facade) }

/-- Adds what a declaration declares, which starts at a page. A table that is kept under its key is
its own index. -/
def add (reading : Reading) (page : Nat) : Declaration → Reading
  | .nothing => reading
  | .table relation =>
      let relation := { relation with indexes := relation.uniques.map UniqueRule.toIndex }
      let reading := { reading with tables := reading.tables ++ [(relation, page)] }
      if relation.key.isSome then reading.addPage { table := relation.name, index := [], page }
      else reading
  | .view name view =>
      let reading := reading.addEntry { kind := .view, name }
      { reading with views := reading.views ++ view.toList.map (fun view => { view }) }
  | .virtualTable name keeper => reading.addEntry { kind := .virtualTable, name, keeper }
  | .index name owner index =>
      let reading := (reading.addEntry { kind := .index, name, belongs := isTasks owner }).addPage
        { table := owner, index := name, page }
      match index with
      | some index => reading.mapTable owner (fun relation => relation.withIndex index)
      | none => reading
  | .trigger name owner trigger =>
      let reading := reading.addEntry { kind := .trigger, name, belongs := isTasks owner }
      trigger.elim reading (reading.addTrigger owner)

/-- The page that a cell of the catalog tells; zero stands for none. -/
def rootOf? (pages : Pages) (cell : Cell) : Option Nat :=
  (Document.ofDigits? 10 cell.shown).filter (· ≤ pages.count)

/-- Reads an entry of the catalog: its kind, its name, the table it belongs to, the page where it
starts and its declaration. An index without one belongs to a rule of its table. -/
def entry (pages : Pages) (reading : Reading) (cells : List Cell) : Except EngineFault Reading :=
  let cell (i : Nat) : Cell := cells.getD i .null
  let text (i : Nat) : Text := (cell i).shown.beforeNul
  let root := rootOf? pages (cell 3)
  let listing : Listing :=
    { kind := text 0, name := text 1, owner := text 2, root := root.getD 0
      tables := reading.tables.map Prod.fst, entries := reading.entries,
        indexPages := reading.indexPages }
  let read : Except DeclarationFault Reading := do
    if (cell 3).isNull then throw .unlisted
    else if (text 4).lower.take 2 = utf8 "cr" then
      if root.isNone then throw .badPage
      return reading.add listing.root (← Declaration.read listing (text 4))
    else if (cell 1).isNull || !(text 4).isEmpty then throw .unlisted
    else return reading.addPage (← listing.indexPage)
  read.mapError (fun fault => .badEntry (if (cell 1).isNull then utf8 "?" else text 1)
    fault.message)

end Reading

/-! Rows and indexes. -/

/-- The places of the columns in the order in which a record keeps their values. -/
def keptPlaces (relation : Relation) : List Nat :=
  let places := (relation.columns.zipIdx.filter (fun (column, _) => column.kept)).map Prod.snd
  match relation.key with
  | none => places
  | some key => key ++ places.filter (fun place => !key.contains place)

/-- The value of a record for a column at a place, if it can be read. Columns that were added after
the record was written have what is told for them. -/
def valueAt? (relation : Relation) (fields : Fields) (place : Nat) : Option Cell :=
  match ((keptPlaces relation).idxOf? place).bind (fun i => fields.cells[i]?) with
  | some cell => cell
  | none =>
      if fields.isWhole then
        (relation.columns[place]?).map (fun column => column.fallback.prefer column.affinity)
      else none

/-- The row that a record holds. What is not kept is computed. -/
def rowOf (relation : Relation) (encoding : TextEncoding) (number : Int64) (fields : Fields) :
    Row :=
  let found : List (Option Cell) := relation.columns.zipIdx.map (fun (column, place) =>
    if !column.kept || relation.numberColumn == some place then some .null
    else
      (valueAt? relation fields place).map (fun cell => if column.affinity = .real then cell.asReal
        else cell))
  let unread := (found.zipIdx.filter (fun (cell, _) => cell.isNone)).map Prod.snd
  let row : Row := { number, cells := found.map (fun cell => cell.getD .null), unread }
  if relation.columns.all Column.kept then row
  else (relation.compute encoding row).toOption.getD row

/-- Nothing can be added to the tree that starts at a page, as far as the page alone tells. -/
def isClosed (pages : Pages) (root : Nat) : Bool := pages.isLeaf root && !pages.hasSoundSpace root

/-- The table with the rows of the tree that starts at a page. The rows of a table that is kept
under its key are reached all or none. -/
def withRows (pages : Pages) (encoding : TextEncoding) (relation : Relation) (root : Nat) :
    Relation :=
  let finds := pages.finds relation.key.isNone root
  let gaps := finds.filterMap Pages.Find.gap?
  let rows := (finds.filterMap Pages.Find.record?).map (fun (number, record) =>
    rowOf relation encoding number (record.fields encoding))
  let isClosed := gaps.isEmpty && isClosed pages root
  if relation.key.isNone then { relation with rows, gaps, isClosed }
  else if gaps.isEmpty && rows.all (fun row => row.unread.isEmpty) then
    { relation with
      isClosed
      rows := rows.zipIdx.map (fun (row, i) => { row with number := Int64.ofNat (i + 1) }) }
  else { relation with gaps := [{}] }

/-- The values of an index and the number behind them. -/
def listing? (encoding : TextEncoding) (width : Nat) (record : Pages.Record) :
    Option (List Cell × Int64) := do
  let fields := record.fields encoding
  let cells ← fields.cells.mapM id
  match fields.isWhole, cells.drop width with
  | true, [.integer number] => some (cells.take width, number)
  | _, _ => none

/-- Two values are the same, whatever is made of them. -/
def isSame (a b : Cell) : Bool := a == b || (a.compareTo .binary b == .eq && !a.isNull)

/-- What an index should list a row as, if that can be read. -/
def expected? (relation : Relation) (encoding : TextEncoding) (index : Index) (row : Row) :
    Option (Option (List Cell)) :=
  let needed := index.mentions.filterMap relation.placeOf?
  if needed.any row.unread.contains then none
  else (relation.listedUnder encoding index.parts index.condition row).toOption

/-- The index with what it lists in the tree that starts at a page, held against the rows of its
table. -/
def withListings (pages : Pages) (encoding : TextEncoding) (relation : Relation) (root : Nat)
    (index : Index) : Index :=
  let finds := pages.finds false root
  let found? := (finds.filterMap Pages.Find.record?).mapM (fun (_, record) =>
    listing? encoding index.parts.length record)
  match (finds.filterMap Pages.Find.gap?).isEmpty, found? with
  | true, some found =>
      let fits (cells : List Cell) (listed : List Cell × Int64) (number : Int64) : Bool :=
        listed.2 == number && (cells.zip listed.1).all (fun (a, b) => isSame a b)
      let rows := relation.rows.map (fun row => (expected? relation encoding index row, row.number))
      let isListed (row : Option (Option (List Cell)) × Int64) : Bool :=
        match row.1 with
        | some none => true
        | some (some cells) => found.any (fun listed => fits cells listed row.2)
        | none => false
      let isStray (listed : List Cell × Int64) : Bool :=
        !rows.any (fun (cells, number) =>
          cells.any (fun cells => cells.any (fun cells => fits cells listed number)))
      { index with
        missing := (rows.filter (fun row => !isListed row)).map Prod.snd
        strays := found.filter isStray
        isClosed := isClosed pages root }
  | _, _ => { index with isLost := true }

/-- The table with what its trees hold. The indexes of a table that is kept under its key are taken
to fit it. -/
def withTrees (pages : Pages) (encoding : TextEncoding) (indexPages : List IndexPage)
    (relation : Relation) (root : Nat) : Relation :=
  let relation := withRows pages encoding relation root
  let pageOf? (index : Index) : Option Nat :=
    (indexPages.find? (fun page =>
      page.table.lower == relation.name.lower && page.index.lower == index.name.lower)).map
        IndexPage.page
  if relation.key.isSome then relation
  else
    { relation with
      indexes := relation.indexes.map (fun index =>
        (pageOf? index).elim index (fun root => withListings pages encoding relation root index)) }

def encodingOf (pages : Pages) : TextEncoding :=
  match pages.number 4 56 % 4 with
  | 2 => .pairs false
  | 3 => .pairs true
  | _ => .bytes

/-- An entry of the catalog, if it can be read. -/
def listedRow? (encoding : TextEncoding) (find : Pages.Find) : Option Row := do
  let (number, record) ← find.record?
  let fields := record.fields encoding
  if fields.isWhole || 5 ≤ fields.cells.length then
    return { number, cells := ← (fields.cells.take 5).mapM id }
  else none

/-- The database that the catalog describes. The catalog is read up to its first fault. -/
def database (pages : Pages) : Except EngineFault Database := do
  let encoding := encodingOf pages
  let listed := (pages.finds true 1).map (listedRow? encoding)
  let reading ← ((listed.takeWhile Option.isSome).filterMap id).foldlM
    (fun reading row => Reading.entry pages reading row.cells) {}
  if listed.any Option.isNone then throw .damaged
  let views := reading.views.map Facade.view
  return {
    encoding
    entries := reading.entries
    listed := listed.filterMap id
    views := reading.views.map (Facade.seeingThrough views)
    tables := reading.tables.map (fun (relation, root) =>
      let relation := withTrees pages encoding reading.indexPages relation root
      { relation with triggers := relation.triggers.map (Trigger.seeingThrough views) }) }

/-! What keeps a catalog from growing. -/

/-- The list of unused pages is empty, or starts at a page and is shorter than the file. -/
def hasSoundSpares (pages : Pages) : Bool :=
  let first := pages.number 4 32
  let count := pages.number 4 36
  count == 0 || (count < pages.count && 2 ≤ first && first ≤ pages.count)

/-- The page that tells what the pages after it are for, up to the next such page, as far as a page
is told of. -/
def mapPage (pages : Pages) (page : Nat) : Nat :=
  (page - 2) / (pages.usable / 5 + 1) * (pages.usable / 5 + 1) + 2

/-- The page after another one, and after the one that tells what it is for if that comes first. -/
def following (pages : Pages) (page : Nat) : Nat :=
  if mapPage pages (page + 1) = page + 1 then page + 2 else page + 1

/-- What a page is for: two stands for nothing, and three and more for what can be moved
elsewhere. -/
def useOf (pages : Pages) (page : Nat) : Nat :=
  let map := mapPage pages page
  pages.byte (pages.start map + 5 * (page - map - 1))

/-- The last page at which a table starts is not told, or the next table can start after it: at the
end, or at a page that is free or can be freed. -/
def hasSoundRoots (pages : Pages) : Bool :=
  let last := pages.number 4 52
  let next := following pages last
  let use := useOf pages next
  last == 0 ||
    (last ≤ pages.count &&
      (next == following pages pages.count || (next ≤ pages.count && 2 ≤ use && use ≤ 5)))

/-- The first page has room for what is added to the catalog, or it is clear that it has none. -/
def hasSoundSpace (pages : Pages) (isEmpty : Bool) : Bool :=
  !pages.isLeaf 1 ||
    (pages.hasSoundSpace 1 &&
      (!isEmpty ||
        FirstPage.canFill pages.usable (if encodingOf pages = .bytes then 1 else 2)
          (pages.contentsStart 1)
          (pages.fragments 1) ((pages.stretches? 1).getD 0)))

def isSpoiled (pages : Pages) : Bool :=
  let isEmpty := pages.isLeaf 1 && pages.cellCount 1 == 0
  !(hasSoundSpace pages isEmpty && hasSoundSpares pages && hasSoundRoots pages)

/-- The size of pages that a file tells. -/
def toldSize (bytes : Octets) : Nat := bytes.octet 16 * 256 + bytes.octet 17 * 65536

/-- The size that pages are taken to have. -/
def assumedSize (bytes : Octets) : Nat :=
  if Pages.isSize (toldSize bytes) then toldSize bytes else 4096

/-- What lies behind a signature that fits. -/
def ofPages (bytes : Octets) : Image :=
  let head : Pages := { bytes, size := 0, usable := 0, count := 0 }
  let size := toldSize bytes
  let present := (bytes.length + size - 1) / size
  let listed := if head.number 4 24 = head.number 4 92 then head.number 4 28 else 0
  let pages :=
    { head with
      size, usable := size - head.byte 20, count := if listed = 0 then present else listed }
  let logged := head.byte 19 = 2
  let unreadable (cause : EngineFault) : Image := { content := .error cause, logged }
  if 2 < head.byte 19 then { content := .error .notADatabase }
  else if (head.byte 21, head.byte 22, head.byte 23) ≠ (64, 32, 32) then unreadable .notADatabase
  else if !Pages.isSize size then unreadable .notADatabase
  else if present < pages.count then unreadable .damaged
  else if pages.usable < 480 then unreadable .notADatabase
  else if 4 < head.byte 47 then unreadable .unsupportedFormat
  else { content := database pages, logged, frozen := 2 < head.byte 18, spoiled := isSpoiled pages }

/-- A file that was written by something else. -/
def ofOctets (bytes : Octets) : Image :=
  if bytes.isBlank then {}
  else if bytes.slice 0 16 != signature then { content := .error .notADatabase }
  else ofPages bytes

end Image
end CodeAudit
