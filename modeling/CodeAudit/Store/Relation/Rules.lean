import CodeAudit.Store.Relation.Evaluation

/-!
The rules that a row has to keep: which values it needs, which follow from others, which types and
which conditions hold, and what may not be repeated. A statement may say what is done about a row
that breaks a rule, whatever the rule says.
-/
namespace CodeAudit

namespace Function

/-- The function gives one of its operands by itself. -/
def isInline (name : Text) : Bool :=
  takesFirst name || ["likely", "unlikely", "likelihood"].any (isNamed name)

end Function

mutual

/-- The value may be that everything is undone, which also any function of a single row may bring
about. -/
def Expr.mayAbort : Expr → Bool
  | .unary _ a | .cast a _ | .collate a _ => a.mayAbort
  | .amongRows a query => a.mayAbort || query.mayAbort
  | .binary _ a b => a.mayAbort || b.mayAbort
  | .between a low high => a.mayAbort || low.mayAbort || high.mayAbort
  | .among a items => a.mayAbort || items.mayAbort
  | .choose condition yes no => condition.mayAbort || yes.mayAbort || no.mayAbort
  | .exists query | .first query => query.mayAbort
  | .call function _ arguments filter =>
      if Function.sumsUp function arguments.toList.length || Function.isInline function then
        arguments.mayAbort || filter.mayAbort
      else true
  | .over function arguments filter window =>
      Function.isNamed function "nth_value" || arguments.mayAbort || filter.mayAbort ||
        window.mayAbort
  | .row items => items.mayAbort
  | .raise resolution _ => resolution == .abort
  | _ => false

def Window.mayAbort : Window → Bool
  | .told _ partition sort _ frame _ _ =>
      [frame.low, frame.high].any (fun edge => edge == .preceding || edge == .following) ||
        partition.mayAbort ||
        sort.mayAbort
  | _ => false

def Exprs.mayAbort : Exprs → Bool
  | .nil => false
  | .cons _ e es => e.mayAbort || es.mayAbort

def Query.mayAbort : Query → Bool
  | .select _ results sources condition groups having sort _ limit offset =>
      results.mayAbort || sources.mayAbort || condition.mayAbort || groups.mayAbort ||
        having.mayAbort ||
        sort.mayAbort || limit.mayAbort || offset.mayAbort
  | .combine _ a b _ _ limit offset => a.mayAbort || b.mayAbort || limit.mayAbort || offset.mayAbort
  | .recurse _ _ start step _ _ limit offset =>
      start.mayAbort || step.mayAbort || limit.mayAbort || offset.mayAbort

def Source.mayAbort : Source → Bool
  | .query query _ => query.mayAbort
  | .function _ arguments => arguments.mayAbort
  | .nested sources => sources.mayAbort
  | _ => false

def Sources.mayAbort : Sources → Bool
  | .nil => false
  | .cons source _ _ on tail => source.mayAbort || on.mayAbort || tail.mayAbort

end

/-- The columns that a change is about; none stands for a row that is new as a whole. -/
abbrev Touched := Option (List Text)

namespace Touched

def has (touched : Touched) (name : Text) : Bool :=
  touched.all (fun names => names.contains name.lower)

def meets (touched : Touched) (names : List Text) : Bool :=
  touched.all (fun columns => names.any (fun name => columns.contains name))

end Touched

def Index.mentions (index : Index) : List Text :=
  index.parts.flatMap (fun (part, _) => part.mentions) ++ (index.condition.elim [] Expr.mentions)

namespace Relation

def isComputed (relation : Relation) : Bool :=
  relation.columns.any (fun column => column.computed.isSome)

/-- The columns that change with some others. -/
def touching (relation : Relation) (names : List Text) : List Text :=
  (List.range relation.columns.length).foldl (fun names _ =>
    names ++ ((relation.columns.filter (fun column =>
      !names.contains column.name.lower &&
        column.computed.any (fun e => e.mentions.any names.contains))).map
          (fun column => column.name.lower))) names

/-- Adding rows may set off triggers and may be refused halfway, so it is made such that it can be
undone by itself. -/
def undoesInsertion (relation : Relation) : Bool :=
  let own := relation.triggers.filter (fun trigger => trigger.occasion == .insertion)
  let stepMayAbort (step : Step) : Bool :=
    match step with
    | .look query => query.mayAbort
    | _ => true
  !own.isEmpty &&
    (relation.columns.any (fun column => column.required == some .abort) ||
      relation.uniques.any (fun rule => rule.resolves == .abort) || !relation.checks.isEmpty ||
      own.any (fun trigger => trigger.condition.mayAbort || trigger.steps.any stepMayAbort))

/-! Values as they are kept. -/

def preferred (relation : Relation) (row : Row) : Row :=
  { row with
    cells := (relation.columns.zip row.cells).map (fun (column, cell) =>
      if column.computed.isSome then cell else cell.prefer column.affinity) }

/-- Computes the values that follow from others, from those there are. -/
def computeOnce (relation : Relation) (encoding : TextEncoding) (row : Row) :
    Except Signal Row := do
  let cells ← (relation.columns.zip row.cells).mapM (fun (column, cell) =>
    match column.computed with
    | none => .ok cell
    | some e => (e.eval (.ofRow encoding .computation relation row)).map
        (Cell.prefer column.affinity))
  return { row with cells }

/-- Computes the values that follow from others, also from computed ones. -/
def compute (relation : Relation) (encoding : TextEncoding) (row : Row) : Except Signal Row :=
  (relation.columns.filter (fun column => column.computed.isSome)).foldlM
    (fun row _ => relation.computeOnce encoding row) row

/-- A column of a strict table takes a value. -/
def admits (type : Text) (cell : Cell) : Bool :=
  let isType (name : String) : Bool := type == utf8 name
  match cell with
  | .null => true
  | .integer _ => !(isType "REAL" || isType "TEXT" || isType "BLOB")
  | .real _ => !(isType "INT" || isType "INTEGER" || isType "TEXT" || isType "BLOB")
  | .text _ => !(isType "INT" || isType "INTEGER" || isType "REAL" || isType "BLOB")
  | .blob _ => !(isType "INT" || isType "INTEGER" || isType "REAL" || isType "TEXT")

def foundType : Cell → String
  | .null => "NULL"
  | .integer _ => "INT"
  | .real _ => "REAL"
  | .text _ => "TEXT"
  | .blob _ => "BLOB"

/-- Refuses a value of a type that a strict table does not take. -/
def typed (relation : Relation) (computed : Bool) (row : Row) : Except Signal Unit :=
  let wrong (entry : Column × Cell) : Bool :=
    entry.1.kept && (computed || entry.1.computed.isNone) && !admits entry.1.type entry.2
  match if relation.strict then (relation.columns.zip row.cells).find? wrong else none with
  | some (column, cell) =>
      .error (.refused (.wrongType (foundType cell) relation.name column.name column.type) .abort)
  | none => .ok ()

/-- A row with the values that its columns prefer and those that follow from others. -/
def settled (relation : Relation) (encoding : TextEncoding) (row : Row) : Except Signal Row := do
  let row := relation.preferred row
  if relation.isComputed then
    relation.typed false row
    relation.compute encoding row
  else return row

/-! Values that are needed. -/

/-- What is done about a row that needs a value in a column. One can be put there only if it is told
which. -/
def lackResolution (override : Option Resolution) (column : Column) : Option Resolution :=
  column.required.map (fun declared =>
    match override.getD declared with
    | .replace => if column.told.isNone ∨ column.computed.isSome then .abort else .replace
    | resolution => resolution)

/-- Refuses a row that needs a value in a column, first in those that are neither computed nor can
be given one, and then in the others. -/
def present (relation : Relation) (override : Option Resolution) (touched : Touched) (isLast : Bool)
    (row : Row) :
    Except Signal Unit :=
  relation.columns.zipIdx.forM (fun (column, place) =>
    match lackResolution override column with
    | some resolution =>
        let waits := column.computed.isSome || resolution == .replace
        if waits == isLast && touched.has column.name && (relation.cell row place).isNull then
          .error (.refused (.noValue relation.name column.name)
            (if resolution = .replace then .abort else resolution))
        else .ok ()
    | none => .ok ())

/-- Puts values where they are needed and can be put. -/
def filled (relation : Relation) (override : Option Resolution) (touched : Touched) (row : Row) :
    Row :=
  { row with
    cells := (relation.columns.zip row.cells).map (fun (column, cell) =>
      if cell.isNull && touched.has column.name && lackResolution override column ==
        some .replace then
        column.fallback.prefer column.affinity
      else cell) }

/-! Conditions. -/

def checksFor (relation : Relation) (touched : Touched) : List Check :=
  relation.checks.filter (fun check => touched.meets check.condition.mentions)

/-- Refuses a row that fails a check. -/
def passes (relation : Relation) (encoding : TextEncoding) (override : Option Resolution)
    (row : Row) (check : Check) : Except Signal Unit := do
  if (← check.condition.eval (.ofRow encoding .check relation row)).truth? = some false then
    let resolution := override.getD .abort
    throw (.refused (.checkFailed check.name)
      (if resolution = .replace then .abort else resolution))

/-- A row that has all the values it needs and passes the checks. -/
def checked (relation : Relation) (encoding : TextEncoding) (override : Option Resolution)
    (touched : Touched) (row : Row) : Except Signal Row := do
  relation.present override touched false row
  let full := relation.filled override touched row
  let row ← if full = row then .ok row else relation.compute encoding full
  relation.present override touched true row
  let checks := relation.checksFor touched
  if !checks.isEmpty then relation.typed true row
  checks.forM (relation.passes encoding override row)
  return row

/-! What may not be repeated. -/

/-- What an index over some parts lists a row under, unless the row fails its condition. -/
def listedUnder (relation : Relation) (encoding : TextEncoding) (parts : List (Expr × Collation))
    (condition : Option Expr) (row : Row) : Except Signal (Option (List Cell)) := do
  let s := Setting.ofRow encoding .indexing relation row
  let meets ←
    match condition with
    | some condition => (condition.eval s).map Cell.isTrue
    | none => .ok true
  if !meets then return none
  return some (← parts.mapM (fun (part, _) => part.eval s))

/-- What a row holds under a rule; nothing if it is none of its rows or lacks a value. -/
def keyUnder (relation : Relation) (encoding : TextEncoding) (rule : UniqueRule) (row : Row) :
    Except Signal (Option (List Cell)) :=
  (relation.listedUnder encoding rule.parts rule.condition row).map (fun key =>
    key.filter (fun cells => !cells.any Cell.isNull))

def sameKey (rule : UniqueRule) (a b : List Cell) : Bool :=
  (rule.parts.zip (a.zip b)).all (fun ((_, collation), (x, y)) => x.equals collation y)

def listedRow (relation : Relation) (number : Int64) : Row :=
  (relation.find? number).getD { number, cells := [] }

/-- Another row that holds the same under a rule, as far as the index of the rule tells, than a row
that takes the place of the one with the number `kept`. -/
def clashing? (relation : Relation) (encoding : TextEncoding) (rule : UniqueRule)
    (kept : Option Int64) (row : Row) :
    Except Signal (Option Row) := do
  match ← relation.keyUnder encoding rule row with
  | none => return none
  | some key =>
      let index := (relation.indexes.find? (fun index => index.name.lower == rule.index.lower)).getD
        rule.toIndex
      if index.isLost then throw (.fault .damaged)
      let others := relation.rows.filter (fun other =>
        some other.number ≠ kept && !index.missing.contains other.number)
      let other? ← others.findM? (fun other => do
        return (← relation.keyUnder encoding rule other).any (sameKey rule key))
      let stray? :=
        index.strays.find? (fun (cells, number) => some number ≠ kept && sameKey rule key cells)
      return other?.or (stray?.map (fun (_, number) => relation.listedRow number))

def repeats (relation : Relation) (rule : UniqueRule) : Violation :=
  match rule.columns? with
  | some names =>
      .repeated relation.name (names.map (fun name =>
        ((relation.placeOf? name).map relation.columnName).getD name))
  | none => .repeatedUnder rule.index

/-- What it is called that a row has the number of another one. -/
def repeatsNumber (relation : Relation) : Violation :=
  .repeated relation.name [(relation.numberColumn.map relation.columnName).getD (utf8 "rowid")]

end Relation
end CodeAudit
