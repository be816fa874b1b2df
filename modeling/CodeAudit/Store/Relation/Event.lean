import CodeAudit.Store.Relation.Rules

/-!
What happens to rows, and which triggers it sets off.
-/
namespace CodeAudit

inductive Event where
  | insertion (new : Row)
  /-- Some columns are given values. -/
  | change (columns : List Text) (old new : Row)
  | deletion (old : Row)

namespace Event

/-- The rows as a trigger sees them. -/
def foci (relation : Relation) : Event → List Focus :=
  let focus (name : String) (row : Row) : Focus :=
    { name := utf8 name, relation, row, apart := true }
  fun
  | insertion new => [focus "new" new]
  | change _ old new => [focus "new" new, focus "old" old]
  | deletion old => [focus "old" old]

def noRow : Row := { number := 0, cells := [] }

end Event

namespace Trigger

def isSetOff (trigger : Trigger) (after : Bool) (event : Event) : Bool :=
  trigger.after == after &&
    match trigger.occasion, event with
    | .insertion, .insertion _ => true
    | .change none, .change _ _ _ => true
    | .change (some watched), .change columns _ _ =>
        watched.any (fun name => columns.any (fun column => column.lower == name.lower))
    | .deletion, .deletion _ => true
    | _, _ => false

end Trigger

namespace Relation

/-- The triggers that an event sets off before or after the row is written, in their order. -/
def triggersFor (relation : Relation) (after : Bool) (event : Event) : List Trigger :=
  relation.triggers.filter (fun trigger => trigger.isSetOff after event)

def namesNumber (relation : Relation) (name : Text) : Bool :=
  match relation.placeOf? name with
  | some place => relation.numberColumn == some place
  | none => relation.key.isNone && Setting.isNumberName name

def numberNames (relation : Relation) : List Text :=
  (relation.numberColumn.map (fun place => (relation.columnName place).lower)).toList ++
    ["rowid", "oid", "_rowid_"].map utf8

/-- The columns that change where some are given values. -/
def changing (relation : Relation) (names : List Text) : List Text :=
  relation.touching
    (names.map Text.lower ++ if names.any relation.namesNumber then relation.numberNames else [])

def isComputedColumn (relation : Relation) (name : Text) : Bool :=
  ((relation.placeOf? name).bind (fun place => relation.columns[place]?)).any
    (fun column => column.computed.isSome)

def givenColumns (relation : Relation) : List Text :=
  (relation.columns.filter (fun column => column.computed.isNone)).map Column.name

/-- Why a new row cannot have values for some columns of the table, which is called by some name. -/
def insertionComplaint? (relation : Relation) (table : Text) (columns : List Text) :
    Option EngineFault :=
  columns.findSome? (fun name =>
    if (relation.placeOf? name).isNone && !relation.namesNumber name then
      some (.notAColumn table name)
    else if relation.isComputedColumn name then some (.computedColumn true name)
    else none)

/-- Why a column cannot be given a value. -/
def changeComplaint? (relation : Relation) (name : Text) : Option EngineFault :=
  if (relation.placeOf? name).isNone && !relation.namesNumber name then some (.noColumn name)
  else if relation.isComputedColumn name then some (.computedColumn false name)
  else none

end Relation

end CodeAudit
