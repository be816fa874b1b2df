import CodeAudit.Store.Relation
import CodeAudit.Store.Relation.Function
import CodeAudit.Store.Relation.Function.Table

/-!
What expressions are evaluated in: the rows that are looked at, each under the name that it goes by,
and the queries around them. A name stands for a column of these rows or for a result of their
query, the innermost first.
-/
namespace CodeAudit

/-- Why something does not go on: a rule refuses the row, or something is wrong. -/
inductive Signal where
  | refused (cause : Violation) (resolution : Resolution)
  | fault (cause : EngineFault)
deriving DecidableEq, Repr

def Relation.scanned (relation : Relation) : Except Signal (List Row) :=
  if relation.gaps.isEmpty && relation.rows.all (fun row => row.unread.isEmpty) then
    .ok relation.rows
  else .error (.fault .damaged)

/-- A row that is looked at, and the name that it goes by. -/
structure Focus where
  name : Text
  relation : Relation
  row : Row := { number := 0, cells := [] }
  /-- The rows are those of a table of the database. -/
  isStored : Bool := false
  /-- Columns are reached only together with the name. -/
  apart : Bool := false
  /-- There is no row, and nothing in any column. -/
  absent : Bool := false
  /-- Columns that stand for those of the same name further left. -/
  hidden : List Text := []

namespace Focus

def withRow (focus : Focus) (row : Row) : Focus := { focus with row, absent := false }

def ofTable (relation : Relation) : Focus := { name := relation.name, relation, isStored := true }

def isOwner (owner : Owner) (focus : Focus) : Bool :=
  focus.name.lower == owner.name.lower &&
    owner.database.all (fun database => focus.isStored && !focus.apart &&
      database.lower == utf8 "main")

end Focus

/-- What is known of a value before there is one: what it is compared as, and by which collation,
which is told or that of a column. -/
structure Trait where
  affinity : Option Affinity := none
  told : Option Collation := none
  column : Option Collation := none

namespace Trait

def collation? (trait : Trait) : Option Collation := trait.told.or trait.column

end Trait

/-- A column of a row, or the number of the row if there is no place. -/
structure Binding where
  focus : Focus
  place : Option Nat

namespace Binding

def value (binding : Binding) : Cell :=
  if binding.focus.absent then .null
  else
    match binding.place with
    | some place => binding.focus.relation.cell binding.focus.row place
    | none => .integer binding.focus.row.number

def isNumber (binding : Binding) : Bool :=
  binding.place.isNone || binding.focus.relation.numberColumn == binding.place

def column? (binding : Binding) : Option Column :=
  binding.place.bind (fun place => binding.focus.relation.columns[place]?)

/-- What is known of the value. Of a row that is looked at apart only the number is compared as
something, and results of queries are not if they prefer nothing. -/
def trait (binding : Binding) : Trait :=
  let isResult := binding.focus.relation.key == some []
  { affinity :=
      if binding.isNumber then some .integer
      else if binding.focus.apart then none
      else (binding.column?.map Column.affinity).filter
        (fun affinity => !(isResult && affinity == .blob))
    column := if binding.isNumber then none else binding.column?.map Column.collation }

end Binding

structure Named where
  name : Text
  cell : Cell := .null
  trait : Trait := {}
  /-- The first function in it that sums up rows. -/
  sum : Option Text := none
  looksAround : Bool := false

/-- Rows that are looked at together, and what else a query or a statement knows of them. -/
structure Scope where
  foci : List Focus := []
  /-- They are looked at by a query. -/
  isQuery : Bool := true
  /-- Results that can be reached by their names. -/
  named : List Named := []
  /-- The rows that are summed up. -/
  group : Option (List (List Focus)) := none
  /-- The values of functions of windows. -/
  windows : List (Expr × Operand) := []

/-- What a name stands for, and how many scopes further out. -/
inductive Meaning where
  | column (level : Nat) (binding : Binding)
  | result (level : Nat) (named : Named)

namespace Meaning

def value : Meaning → Cell
  | column _ binding => binding.value
  | result _ named => named.cell

def trait : Meaning → Trait
  | column _ binding => binding.trait
  | result _ named => named.trait

end Meaning

/-- What expressions are evaluated in. -/
structure Setting where
  encoding : TextEncoding := .bytes
  tables : List Relation := []
  /-- Tables that something looks after which is not there: their names, and what that is called. -/
  others : List (Text × Text) := []
  lastNumber : Int64 := 0
  /-- The number of rows that the last statement wrote, and that of all statements. -/
  changes : Nat := 0
  allChanges : Nat := 0
  /-- What the value is for, if a declaration asks for it. -/
  purpose : Option Purpose := none
  /-- The rows that are looked at, the innermost ones first. -/
  scopes : List Scope := []
  /-- The row that a query goes on from. -/
  itself : Option Relation := none
  /-- How often a query goes on from a row, if it may be left off before its end. -/
  patience : Option Nat := none

namespace Setting

def table? (s : Setting) (name : Text) : Option Relation :=
  s.tables.find? (fun table => table.name.lower = name.lower)

/-- Why a name stands for nothing that can be looked through. -/
def absence? (s : Setting) (name : Text) : Option EngineFault :=
  if (s.table? name).isSome || (Function.table? name).isSome then none
  else
    match s.others.find? (fun (other, _) => other.lower == name.lower) with
    | some (_, keeper) => some (.noModule keeper)
    | none => some (.noRelation name)

def ofRow (encoding : TextEncoding) (purpose : Purpose) (relation : Relation) (row : Row) :
    Setting :=
  { encoding, purpose := some purpose
    scopes := [{ foci := [(Focus.ofTable relation).withRow row], isQuery := false }] }

def call (s : Setting) (collation : Collation) : Invocation :=
  { collation, lastNumber := s.lastNumber, changes := s.changes, allChanges := s.allChanges,
    purpose := s.purpose }

/-- Inside of a query that looks at some rows. -/
def within (s : Setting) (foci : List Focus) : Setting := { s with scopes := { foci } :: s.scopes }

/-- Inside of a statement that looks at some rows. -/
def beside (s : Setting) (foci : List Focus) : Setting :=
  { s with scopes := { foci, isQuery := false } :: s.scopes }

/-- The setting of another row instead of those that are summed up some scopes further out. -/
def atRow (s : Setting) (level : Nat) (foci : List Focus) : Setting :=
  { s with scopes := { (s.scopes.getD level {}) with
    foci, group := none } :: s.scopes.drop (level + 1) }

/-- The same with something else known of the innermost rows. -/
def mapScope (s : Setting) (f : Scope → Scope) : Setting :=
  match s.scopes with
  | [] => s
  | scope :: outer => { s with scopes := f scope :: outer }

/-- Only the rows that a trigger sees. -/
def outermost (s : Setting) : Setting :=
  { s with scopes := (s.scopes.getLast?.filter (fun scope => !scope.isQuery)).toList }

/-- Without the queries around the innermost one. -/
def alone (s : Setting) : Setting :=
  { s with scopes := s.scopes.take 1 ++ { s with scopes := s.scopes.drop 1 }.outermost.scopes }

def bare (s : Setting) : Setting := { s with scopes := [] }

def isNumberName (name : Text) : Bool :=
  ["rowid", "oid", "_rowid_"].any (fun known => utf8 known == name.lower)

/-- A column that is shared stands for that of a table further right where there is no row further
left. -/
def present (foci : List Focus) (name : Text) (binding : Binding) : Binding :=
  if binding.focus.absent then
    let other := foci.findSome? (fun focus =>
      if focus.absent || !focus.hidden.contains name.lower then none
      else (focus.relation.placeOf? name).map
        (fun place => ({ focus, place := some place } : Binding)))
    other.getD binding
  else binding

def boundIn (owner : Option Owner) (name : Text) (foci : List Focus) : List Binding :=
  let eligible := foci.filter (fun focus =>
    match owner with
    | some owner => focus.isOwner owner
    | none => !focus.apart)
  let columns := eligible.foldl (fun (columns : List Binding) focus =>
    match focus.relation.placeOf? name with
    | some place =>
        if focus.hidden.contains name.lower && !columns.isEmpty then columns
        else columns ++ [{ focus, place := some place }]
    | none => columns) []
  match columns, eligible.filter (fun focus => focus.relation.key.isNone) with
  | [], [focus] => if isNumberName name then [{ focus, place := none }] else []
  | columns, _ => if owner.isNone then columns.map (present foci name) else columns

/-- What a name stands for in one scope: columns, or else a result. -/
def meantIn (owner : Option Owner) (name : Text) (level : Nat) (scope : Scope) : List Meaning :=
  match boundIn owner name scope.foci, owner with
  | [], none =>
      ((scope.named.find? (fun named => named.name.lower == name.lower)).map
        (Meaning.result level)).toList
  | bindings, _ => bindings.map (Meaning.column level)

/-- The owner of a column, where all tables are of one database. -/
def ownerIn (s : Setting) (owner : Owner) : Owner :=
  if s.purpose = some .check ∨ s.purpose = some .choice then { owner with database := none }
  else owner

/-- What a name stands for: nothing, one thing, or more than one. -/
def resolve (s : Setting) (owner : Option Owner) (name : Text) : List Meaning :=
  (s.scopes.zipIdx.findSome? (fun (scope, level) =>
    match meantIn (owner.map s.ownerIn) name level scope with
    | [] => none
    | meanings => some meanings)).getD []

/-- All columns that are seen, perhaps of one table only. -/
def all (s : Setting) (owner : Option Text) : List Binding :=
  let scope := (s.scopes.head?.map Scope.foci).getD []
  let foci := scope.filter (fun focus => owner.all (fun owner => focus.name.lower == owner.lower))
  foci.flatMap (fun focus =>
    focus.relation.columns.zipIdx.filterMap (fun (column, place) =>
      if column.hidden || (owner.isNone && focus.hidden.contains column.name.lower) then none
      else
        let binding : Binding := { focus, place := some place }
        some (if owner.isNone then present scope column.name binding else binding)))

/-- Lets results that have names be reached by them, after the columns of their query. -/
def naming (s : Setting) (named : List Named) : Setting :=
  s.mapScope (fun scope => { scope with named })

end Setting

namespace Join

def sharing (join : Join) (before : List Focus) (columns : List Column) : List Text :=
  if join.natural then
    ((columns.filter (fun column => !column.hidden)).map (fun column => column.name.lower)).filter
      (fun name =>
      before.any (fun focus => (focus.relation.placeOf? name).isSome))
  else join.shared.map Text.lower

/-- Rows of something beside those before it. What is shared stands for columns further left. -/
def besides (join : Join) (before foci : List Focus) : List Focus :=
  let shared := join.sharing before (foci.flatMap (fun focus => focus.relation.columns))
  foci.map (fun focus => { focus with hidden := focus.hidden ++ shared })

end Join
end CodeAudit
