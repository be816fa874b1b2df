import CodeAudit.Store
import CodeAudit.Store.Relation.Index

/-!
Tables with columns and rules of their own, as they are found in files. Rows are numbered, and the
number may be one of the columns. A row that is added or changed has to have a value where one is
needed, has to pass the checks, must not repeat what may not be repeated, and sets off triggers.
-/
namespace CodeAudit

structure Column where
  name : Text
  affinity : Affinity := .blob
  collation : Collation := .binary
  /-- The type in capital letters, which only a strict table minds. -/
  type : Text := []
  /-- What is done about a row without a value, if it has to have one. -/
  required : Option Resolution := none
  /-- What a row holds that was added without a value, if that is told. -/
  told : Option Cell := none
  /-- The value follows from those of other columns. -/
  computed : Option Expr := none
  /-- The value is kept with the row. -/
  kept : Bool := true
  /-- Only those who ask for the column see it. -/
  hidden : Bool := false
deriving DecidableEq

/-- A condition that no row may fail. -/
structure Check where
  name : Text
  condition : Expr
deriving DecidableEq

/-- What rows together may not repeat, among those that meet a condition. -/
structure UniqueRule where
  /-- The index in which repetitions are looked for. -/
  index : Text
  parts : List (Expr × Collation)
  condition : Option Expr := none
  resolution : Option Resolution := none
deriving DecidableEq

inductive Occasion where
  | insertion
  /-- A change, perhaps only of some columns. -/
  | change (columns : Option (List Text))
  | deletion
deriving DecidableEq, Repr

structure Trigger where
  name : Text
  occasion : Occasion
  /-- The trigger waits until the row has been written. -/
  after : Bool
  condition : Expr := .always
  steps : List Step := []
deriving DecidableEq

structure Row where
  number : Int64
  cells : List Cell
  /-- The places of the columns whose values cannot be read. -/
  unread : List Nat := []
deriving DecidableEq, Repr

/-- A table. Rows are in the order of their numbers, as far as they can be reached. -/
structure Relation where
  name : Text
  columns : List Column
  /-- The place of the column that is the number of the row. -/
  numberColumn : Option Nat := none
  /-- What is done about a row with the number of another one. -/
  numberResolution : Option Resolution := none
  /-- Numbers are never given again. -/
  counts : Bool := false
  /-- The places of the columns under which rows are kept if not under their numbers, which nobody
  sees then. -/
  key : Option (List Nat) := none
  /-- Cells have to be of the types of their columns. -/
  strict : Bool := false
  checks : List Check := []
  /-- What was declared last is looked at first. -/
  uniques : List UniqueRule := []
  /-- The last one that was declared comes first. -/
  triggers : List Trigger := []
  rows : List Row := []
  gaps : List Gap := []
  /-- Nothing can be added to the rows. -/
  isClosed : Bool := false
  /-- The last one that was declared comes first. -/
  indexes : List Index := []
deriving DecidableEq

namespace Column

/-- What a row holds that was added without a value. -/
def fallback (column : Column) : Cell := column.told.getD .null

end Column

namespace UniqueRule

def resolves (rule : UniqueRule) : Resolution := rule.resolution.getD .abort

def toIndex (rule : UniqueRule) : Index :=
  { name := rule.index, parts := rule.parts, condition := rule.condition, isUnique := true }

/-- The names of the columns, if there is nothing else in the rule. -/
def columns? (rule : UniqueRule) : Option (List Text) :=
  rule.parts.mapM (fun (part, _) => part.column?)

end UniqueRule

namespace Trigger

def seeingThrough (views : List View) (trigger : Trigger) : Trigger :=
  { trigger with
    condition := trigger.condition.replace (View.expansion views)
    steps := trigger.steps.map (Step.replace (View.expansion views)) }

end Trigger

namespace Relation

def placeOf? (relation : Relation) (name : Text) : Option Nat :=
  relation.columns.findIdx? (fun column => column.name.lower = name.lower)

def place? (relation : Relation) (name : String) : Option Nat := relation.placeOf? (utf8 name)

def columnName (relation : Relation) (place : Nat) : Text :=
  ((relation.columns[place]?).map Column.name).getD []

def cell (relation : Relation) (row : Row) (place : Nat) : Cell :=
  if relation.numberColumn = some place then .integer row.number else row.cells.getD place .null

/-- The value of a row in a column; nothing in a column that is not there. -/
def value (relation : Relation) (row : Row) (name : String) : Cell :=
  ((relation.place? name).map (relation.cell row)).getD .null

/-- Rows are looked up in order by their values at a place. -/
def isOrdered (relation : Relation) (place : Nat) : Bool :=
  relation.uniques.any (fun rule =>
    rule.condition.isNone &&
      ((rule.parts.head?.bind (fun (part, _) => part.column?)).bind relation.placeOf?) ==
        some place)

/-- What a value is compared as with those of a column. An integer stays one even where numbers have
fractions, unless it is looked up among values that are kept in order. -/
def sought (relation : Relation) (place : Nat) (affinity : Affinity) (value : Cell) : Cell :=
  match affinity, value with
  | .blob, _ => value
  | .real, .integer _ => if relation.isOrdered place then value.prefer .real else value
  | _, _ => value.prefer affinity

def matchesCell (relation : Relation) (name : String) (value : Cell) (row : Row) : Bool :=
  match relation.place? name with
  | none => false
  | some place =>
      match relation.columns[place]? with
      | none => false
      | some column =>
          (relation.cell row place).equals column.collation
            (relation.sought place column.affinity value)

/-- Adds a rule: those that replace what is in the way are looked at after the others. -/
def withUnique (relation : Relation) (rule : UniqueRule) : Relation :=
  let replaces (rule : UniqueRule) : Bool := rule.resolves == .replace
  let uniques :=
    if replaces rule then
      relation.uniques.filter (fun other => !replaces other) ++ rule ::
        relation.uniques.filter replaces
    else rule :: relation.uniques
  { relation with uniques }

/-- The name of the index of the next rule that is told together with the table. -/
def nextIndex (relation : Relation) : Text :=
  utf8 "sqlite_autoindex_" ++ relation.name ++ [95] ++ Text.ofNat (relation.uniques.length + 1)

def withIndex (relation : Relation) (index : Index) : Relation :=
  let relation := { relation with indexes := index :: relation.indexes }
  if index.isUnique then
    relation.withUnique { index := index.name, parts := index.parts, condition := index.condition }
  else relation

/-! What cannot be reached. -/

/-- All rows can be read, and found by what they hold. -/
def isSound (relation : Relation) : Bool :=
  relation.gaps.isEmpty && !relation.isClosed &&
    relation.rows.all (fun row => row.unread.isEmpty) &&
    relation.indexes.all Index.isSound

def hides (relation : Relation) (number : Int64) : Bool :=
  relation.gaps.any (fun gap => gap.holds number)

/-- It cannot be told which row has the largest number. -/
def hidesLast (relation : Relation) : Bool := relation.gaps.any (fun gap => gap.upTo.isNone)

def reached (relation : Relation) : List Row :=
  match relation.gaps with
  | [] => relation.rows
  | gap :: _ => relation.rows.takeWhile (fun row => gap.above.any (row.number ≤ ·))

/-! Rows and their numbers. -/

def put (row : Row) : List Row → List Row
  | [] => [row]
  | r :: rest => if row.number < r.number then row :: r :: rest else r :: put row rest

def find? (relation : Relation) (number : Int64) : Option Row :=
  relation.rows.find? (fun row => row.number = number)

def without (relation : Relation) (number : Int64) : Relation :=
  { relation with rows := relation.rows.filter (fun row => row.number ≠ number) }

def withRow (relation : Relation) (row : Row) : Relation :=
  { relation with rows := put row relation.rows }

def freeNumber (relation : Relation) : Int64 :=
  let free := (List.range (relation.rows.length + 1)).find? (fun n =>
    relation.rows.all (fun row => row.number != Int64.ofNat (n + 1)))
  Int64.ofNat (free.getD 0 + 1)

/-- One more than the largest number. If numbers are never given again it is also more than `last`,
and none is left once the largest one of 64 bits has been given; otherwise any free one will do
then. -/
def nextNumber? (relation : Relation) (last : Int64) : Option Int64 :=
  let largest := (relation.rows.getLast?).map Row.number
  if largest = some Int64.maxValue ∨ (relation.counts ∧ last = Int64.maxValue) then
    if relation.counts then none else some relation.freeNumber
  else
    let following := (largest.map (· + 1)).getD 1
    some (if relation.counts then max (last + 1) following else following)

end Relation
end CodeAudit
