import CodeAudit.Store.Database

/-!
How the catalog of an empty file fills up while the table of tasks is made. Some bytes of the first
page may be lost: they are neither free nor part of a cell. Only sizes count. A cell that does not
fit is spread with those of its page and the pages beside it over as many pages as are needed; with
bytes lost, a page can come out without cells, and then the file is given up as damaged.
-/
namespace CodeAudit
namespace FirstPage

/-- How many bytes a number takes with seven bits each. -/
def sevensLength (n : Nat) : Nat := if n < 128 then 1 else if n < 16384 then 2 else 3

/-- How many bytes a cell takes whose record has a size and whose row is one of the first. -/
def cellSize (usable record : Nat) : Nat :=
  let most := usable - 35
  let least := (usable - 12) * 32 / 255 - 23
  let wanted := least + (record - least) % (usable - 4)
  let kept := if record ≤ most then record else 4 + if wanted ≤ most then wanted else least
  max 4 (sevensLength record + 1 + kept)

/-- The size of the record of a catalog entry: its texts, in units of some bytes, and the page where
it starts. -/
def recordSize (unit : Nat) (kind name owner declaration : String) : Nat :=
  let sizes := [kind, name, owner].map (fun s => s.length * unit)
  let size := declaration.length * unit
  let described := (sizes.map (fun n => sevensLength (13 + 2 * n))).foldr (· + ·) 0 + 1 +
    if size = 0 then 1 else sevensLength (13 + 2 * size)
  described + (if described + 1 < 128 then 1 else 2) + sizes.foldr (· + ·) 0 + 1 + size

/-- A step of filling the catalog: an entry is added or grows to a size. -/
structure Step where
  entry : Nat
  isNew : Bool
  size : Nat

/-- An entry of a table is added with a few bytes, and grows once the table is made. -/
def steps (usable unit : Nat) : List Step :=
  let name := Relation.tasksName
  let size (kind name owner declaration : String) : Nat :=
    cellSize usable (recordSize unit kind name owner declaration)
  [⟨1, true, 8⟩,
   ⟨2, true, size "index" ("sqlite_autoindex_" ++ name ++ "_1") name ""⟩,
   ⟨1, false, size "table" name name Database.tableDeclaration⟩,
   ⟨3, true, 8⟩,
   ⟨3, false, size "table" "sqlite_sequence" "sqlite_sequence"
     "CREATE TABLE sqlite_sequence(name,seq)"⟩,
   ⟨4, true, size "index" Database.projectIndex name
     (Database.indexDeclaration Database.projectIndex "project_id")⟩,
   ⟨5, true, size "index" Database.groupIndex name
     (Database.indexDeclaration Database.groupIndex "group_id")⟩]

/-- A page with the entries on it and their sizes. -/
structure Leaf where
  lost : Int
  cells : List (Nat × Nat)

/-- The bytes that cells take, and two for the place of each. -/
def taken (cells : List (Nat × Nat)) : Int :=
  (cells.map (fun cell => (cell.2 : Int) + 2)).foldr (· + ·) 0

def Leaf.used (leaf : Leaf) : Int := leaf.lost + taken leaf.cells

def Leaf.put (leaf : Leaf) (entry size : Nat) : Leaf :=
  let (before, after) := leaf.cells.partition (fun cell => cell.1 < entry)
  { leaf with cells := before ++ (entry, size) :: after }

/-- A leaf that loses its last cell is as good as new. -/
def Leaf.remove (leaf : Leaf) (entry : Nat) : Leaf :=
  let cells := leaf.cells.filter (fun cell => cell.1 != entry)
  { lost := if cells.isEmpty then 0 else leaf.lost, cells }

/-- Cells spread over leaves: how many of them there are up to the end of each leaf, and what is
used of it. -/
structure Spread where
  ends : Array Nat
  used : Array Int

namespace Spread

def endOf (spread : Spread) (leaf : Nat) : Nat := spread.ends.getD leaf 0

def usedOf (spread : Spread) (leaf : Nat) : Int := spread.used.getD leaf 0

/-- How many cells there are before a leaf. -/
def startOf (spread : Spread) (leaf : Nat) : Nat := if leaf = 0 then 0 else spread.endOf (leaf - 1)

/-- Changes what is used of a leaf, if the leaf is there. -/
def use (spread : Spread) (leaf : Nat) (bytes : Int) : Spread :=
  { spread with used := spread.used.setIfInBounds leaf (spread.usedOf leaf + bytes) }

def setEnd (spread : Spread) (leaf cells : Nat) : Spread :=
  { spread with ends := spread.ends.setIfInBounds leaf cells }

/-- The first leaves. -/
def cut (spread : Spread) (leaves : Nat) : Spread :=
  { ends := spread.ends.extract 0 leaves, used := spread.used.extract 0 leaves }

/-- Moves cells from the end of a leaf that is too full to the next one. At most five leaves are
made. -/
def shed (room : Int) (sizes : Array Nat) (leaf : Nat) : Nat → Spread → Option Spread
  | 0, spread => some spread
  | fuel + 1, spread =>
      if spread.usedOf leaf ≤ room then some spread
      else if spread.ends.size ≤ leaf + 1 && 5 ≤ spread.ends.size then none
      else
        let spread : Spread :=
          if spread.ends.size ≤ leaf + 1 then
            { ends := spread.ends.push sizes.size, used := spread.used.push 0 }
          else spread
        let last := spread.endOf leaf - 1
        let bytes : Int := sizes.getD last 0 + 2
        let spread := ((spread.use leaf (-bytes)).use (leaf + 1) bytes).setEnd leaf last
        if last = 0 ∧ room < spread.usedOf leaf then none else shed room sizes leaf fuel spread

/-- Moves cells to the end of a leaf as long as they fit. -/
def fill (room : Int) (sizes : Array Nat) (leaf : Nat) : Nat → Spread → Spread
  | 0, spread => spread
  | fuel + 1, spread =>
      let next := spread.endOf leaf
      let bytes : Int := sizes.getD next 0 + 2
      if sizes.size ≤ next ∨ room < spread.usedOf leaf + bytes then spread
      else fill room sizes leaf fuel
        (((spread.use leaf bytes).use (leaf + 1) (-bytes)).setEnd leaf (next + 1))

/-- Packs the leaves from one of them on as full as possible. -/
def pack (room : Int) (sizes : Array Nat) : Nat → Nat → Spread → Option Spread
  | 0, _, spread => some spread
  | fuel + 1, leaf, spread =>
      if spread.ends.size ≤ leaf then some spread
      else do
        let spread := fill room sizes leaf sizes.size
          (← shed room sizes leaf (sizes.size + 1) spread)
        if sizes.size ≤ spread.endOf leaf then return spread.cut (leaf + 1)
        else if spread.endOf leaf ≤ spread.startOf leaf then none
        else pack room sizes fuel (leaf + 1) spread

/-- Moves cells from the end of the leaf before to a leaf as long as that one does not get
fuller. -/
def even (sizes : Array Nat) (leaf : Nat) : Nat → Spread → Spread
  | 0, spread => spread
  | fuel + 1, spread =>
      let last := spread.startOf leaf - 1
      let size : Int := sizes.getD last 0
      let own := spread.usedOf leaf
      let besides : Int := if leaf + 1 = spread.ends.size then 0 else 2
      if own ≠ 0 ∧ spread.usedOf (leaf - 1) - (size + besides) < own + size + 2 then spread
      else
        let spread := ((spread.use leaf (size + 2)).use (leaf - 1) (-(size + 2))).setEnd
          (leaf - 1) last
        if last = 0 then spread else even sizes leaf fuel spread

/-- Evens out the leaves from the last one to the second. -/
def evenAll (sizes : Array Nat) : Nat → Spread → Option Spread
  | 0, spread => some spread
  | leaf + 1, spread =>
      if spread.ends.size ≤ leaf + 1 then evenAll sizes leaf spread
      else
        let spread := even sizes (leaf + 1) sizes.size spread
        if spread.endOf leaf ≤ spread.startOf leaf then none else evenAll sizes leaf spread

end Spread

/-- Spreads the cells of leaves anew, of which none may come out empty. -/
def rebalance (room : Int) (leaves : List Leaf) : Option (List Leaf) := do
  let cells := leaves.flatMap Leaf.cells
  let sizes := (cells.map Prod.snd).toArray
  let ends := (leaves.map (fun leaf => leaf.cells.length)).foldl
    (fun ends n => ends.push (ends.back?.getD 0 + n)) #[]
  let spread ← Spread.pack room sizes 6 0 { ends, used := (leaves.map Leaf.used).toArray }
  let spread ← Spread.evenAll sizes 5 spread
  return (List.range spread.ends.size).map (fun leaf =>
    let own := (cells.drop (spread.startOf leaf)).take (spread.endOf leaf - spread.startOf leaf)
    { lost := spread.usedOf leaf - taken own, cells := own })

/-- The leaves that are spread together with one of them: it and those beside it. -/
def neighbours (leaves leaf : Nat) : Nat × Nat :=
  if leaves ≤ 2 then (0, leaves)
  else
    let first := if leaf = 0 then 0 else if leaf + 1 = leaves then leaves - 3 else leaf - 1
    (first, first + 3)

/-- Takes a step with the catalog in some leaves. The only leaf has the heading of the file in front
of it. -/
def take (usable : Nat) (leaves : List Leaf) (step : Step) : Option (List Leaf) := do
  let place :=
    if step.isNew then leaves.length - 1
    else (leaves.findIdx? (fun leaf => leaf.cells.any (fun cell => cell.1 = step.entry))).getD 0
  let leaf ← leaves[place]?
  let leaf := if step.isNew then leaf else leaf.remove step.entry
  let room : Int := if leaves.length = 1 then (usable : Int) - 108 else (usable : Int) - 8
  let changed := leaves.set place (leaf.put step.entry step.size)
  if (step.size : Int) + 2 ≤ room - leaf.used then return changed
  else
    let (first, stop) := neighbours leaves.length place
    let spread ← rebalance ((usable : Int) - 8) ((changed.take stop).drop first)
    return changed.take first ++ spread ++ changed.drop stop

/-- The first page while the catalog fits into it: the stretch of free bytes in front of the cells,
and the hole that a removed cell has left behind. -/
structure Room where
  stretch : Int
  hole : Int := 0

/-- Takes the steps for which the first page has room. Some of its free bytes are fragments, where
no cell can be put: if a cell needs them, the cells have to be moved together, which is given up
unless there are few of them. -/
def movesTogether (fragments : Int) : List Step → Room → Bool
  | [], _ => true
  | step :: rest, room =>
      let room : Room :=
        if step.isNew then room
        else if step.entry = 3 then { room with stretch := room.stretch + 10 }
        else { stretch := room.stretch + 2, hole := 8 }
      let size : Int := step.size
      let free := room.stretch + fragments + room.hole
      if free < size + 2 then true
      else if size ≤ room.hole then movesTogether fragments rest { room with hole := 0 }
      else if size + 2 ≤ room.stretch then
        movesTogether fragments rest { room with stretch := room.stretch - (size + 2) }
      else if fragments ≤ min 4 (free - (size + 2)) ∧ 0 < room.hole ∧
        size + 2 ≤ room.stretch + room.hole then
        movesTogether fragments rest { stretch := room.stretch + room.hole - (size + 2) }
      else false

/-- The catalog can be filled with the contents of the first page starting at some byte, and with
some fragments and other free stretches behind it. All other bytes are lost. -/
def canFill (usable unit start fragments stretches : Nat) : Bool :=
  let lost : Int := (usable : Int) - (start + fragments + stretches)
  lost == 0 ||
    ((fragments == 0 || movesTogether fragments (steps usable unit)
      { stretch := (start : Int) - 108 }) &&
      ((steps usable unit).foldlM (take usable) [{ lost, cells := [] }]).isSome)

end FirstPage
end CodeAudit
