import CodeAudit.Fault
import CodeAudit.Store.Relation

/-!
Looking up the rows that have a value in a column: by their numbers, through an index, or one after
the other. A search gets as far as what it comes across can be read. An index is believed in what it
lists.
-/
namespace CodeAudit

/-- The rows that a search comes across, and why it does not come across more. -/
structure Search where
  rows : List Row := []
  fault : Option EngineFault := none

namespace Search

def after (row : Row) (rest : Search) : Search := { rest with rows := row :: rest.rows }

def broken : Search := { fault := some .damaged }

/-- The rows that meet a condition on some columns, up to one where they cannot be read. -/
def keep (search : Search) (columns : List Nat) (meets : Row → Bool) : Search :=
  search.rows.foldr (fun row rest =>
    if columns.any row.unread.contains then broken
    else if meets row then rest.after row
    else rest) { fault := search.fault }

def first (search : Search) : Search :=
  match search.rows with
  | row :: _ => { rows := [row] }
  | [] => search

/-- The rows after they were put in order, which takes all of them. -/
def sorted (search : Search) (sort : List Row → List Row) : Search :=
  if search.fault.isSome then { search with rows := [] }
  else { search with rows := sort search.rows }

end Search

namespace Relation

/-- The rows of some numbers, which have to be there. -/
def visit (relation : Relation) : List Int64 → Search
  | [] => {}
  | number :: rest =>
      match if relation.hides number then none else relation.find? number with
      | some row => (relation.visit rest).after row
      | none => .broken

/-- All rows one after the other. -/
def walk (relation : Relation) : Search :=
  { rows := relation.reached, fault := if relation.gaps.isEmpty then none else some .damaged }

/-- Rows are listed by their values at a place first, and all of them are. -/
def leads (relation : Relation) (place : Nat) (index : Index) : Bool :=
  index.condition.isNone &&
    match index.parts.head?, relation.columns[place]? with
    | some (part, collation), some column =>
        part.column?.bind relation.placeOf? == some place && collation == column.collation
    | _, _ => false

/-- Among rows with the same value in the first part the ids are in order. -/
def listsInOrder (relation : Relation) (index : Index) : Bool :=
  let id? := relation.place? "id"
  match index.parts with
  | _ :: (part, _) :: _ => id?.isSome && part.column?.bind relation.placeOf? == id?
  | _ => id?.isSome && relation.numberColumn == id?

/-- The index in which rows are looked up by their values at a place: one of values that do not
repeat, else one that lists ids in order, else the one that was declared last. -/
def indexAt? (relation : Relation) (place : Nat) : Option Index :=
  let fit := relation.indexes.filter (relation.leads place)
  (fit.find? (fun index => index.isUnique && index.parts.length == 1)).or
    ((fit.find? relation.listsInOrder).or fit.head?)

/-- The numbers that an index lists under a value of its first part, where `matching` rows hold the
value. -/
def numbersUnder (matching : List Row) (collation : Collation) (value : Cell) (index : Index) :
    List Int64 :=
  let listed := (matching.filter (fun row => !index.missing.contains row.number)).map Row.number
  let strays := (index.strays.filter (fun (cells, number) =>
    cells.head?.any (fun cell => cell.equals collation value) && !listed.contains number)).map
      Prod.snd
  (listed ++ strays).mergeSort (· ≤ ·)

def search (relation : Relation) (name : String) (value : Cell) : Search :=
  match relation.place? name with
  | none => {}
  | some place =>
      let column := (relation.columns[place]?).getD { name := [] }
      let sought := relation.sought place column.affinity value
      let inOrder (rows : List Row) : List Row :=
        let id := (relation.place? "id").bind (fun place => relation.columns[place]?)
        let collation := (id.map Column.collation).getD .binary
        rows.mergeSort (fun a b => (relation.value a "id").compareTo collation
          (relation.value b "id") != .gt)
      if relation.numberColumn = some place then
        match sought with
        | .integer number =>
            if relation.hides number then .broken else { rows := (relation.find? number).toList }
        | _ => {}
      else
        match relation.indexAt? place with
        | none =>
            let found := relation.walk.keep [place] (relation.matchesCell name value)
            if relation.numberColumn.isSome && relation.numberColumn ==
              relation.place? "id" then found
            else found.sorted inOrder
        | some index =>
            if index.isLost then .broken
            else
              let found := relation.visit
                (numbersUnder (relation.rows.filter (relation.matchesCell name value))
                  column.collation sought index)
              if relation.listsInOrder index then { found with rows := inOrder found.rows }
              else found.sorted inOrder

end Relation
end CodeAudit
