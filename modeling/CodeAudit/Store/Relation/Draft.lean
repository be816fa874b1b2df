import CodeAudit.Store.Relation.Clause
import CodeAudit.Store.Relation.Evaluation
import CodeAudit.Store.Relation.Restriction

/-!
Tables that are put together clause by clause. A clause is refused for what has been declared before
it; conditions and values that follow from others are looked into when all columns are known.
-/
namespace CodeAudit

/-- A table that is being declared. -/
structure Draft where
  relation : Relation
  /-- The name of the next rule, if it has one. -/
  label : Option Text := none
  /-- The places of the primary key, once there is one. -/
  primary : Option (List Nat) := none

namespace Draft

def lastPlace (draft : Draft) : Nat := draft.relation.columns.length - 1

def column (draft : Draft) : Column := (draft.relation.columns.getLast?).getD { name := [] }

def withColumn (draft : Draft) (column : Column) : Draft :=
  { draft with relation := { draft.relation with
    columns := draft.relation.columns.dropLast ++ [column] } }

def isComputed (draft : Draft) (place : Nat) : Bool :=
  (draft.relation.columns[place]?).any (fun column => column.computed.isSome)

/-! Rules about columns. -/

def mostColumns : Nat := 2000

/-- A part of a rule without its collation, and that. -/
def bare : Expr → Expr × Option Collation
  | .collate e collation => ((bare e).1, some collation)
  | e => (e, none)

/-- The column that an expression stands for by itself, also as a text. -/
def named? (draft : Draft) (e : Expr) : Option Nat :=
  match (bare e).1 with
  | .name none name _ | .value (.text name) => draft.relation.placeOf? name
  | _ => none

/-- The column that a part of a rule stands for, with its own collation. -/
def placeOf (draft : Draft) (e : Expr) : Except DeclarationFault (Nat × Option Collation) :=
  match draft.named? e, (bare e).1 with
  | some place, _ => .ok (place, (bare e).2)
  | none, .value (.text name) => .error (.engine (.noColumn name))
  | none, e => .error ((e.misfit? .indexing draft.relation).getD .keyOfExpressions)

/-- Where nothing stands in an order does not matter to a rule, so it may not be told. -/
def refuseNulls (parts : List (Expr × Order)) : Except DeclarationFault Unit :=
  match parts.findSome? (fun (_, order) => order.nullsLast) with
  | some last => .error (.keyNulls last)
  | none => .ok ()

/-- The columns that a rule is about: the last one if none is told. -/
def placesOf (draft : Draft) :
    Option (List (Expr × Order)) → Except DeclarationFault (List (Nat × Option Collation))
  | none => .ok [(draft.lastPlace, none)]
  | some parts => do
      refuseNulls parts
      parts.mapM (fun (e, _) => draft.placeOf e)

/-- The parts of a rule about columns, with the collations of those that have none. -/
def partsAt (draft : Draft) (places : List (Nat × Option Collation)) : List (Expr × Collation) :=
  places.filterMap (fun (place, collation) =>
    (draft.relation.columns[place]?).map (fun column =>
      (Expr.column column.name, collation.getD column.collation)))

/-- Lets no values of some columns repeat. Of two rules about the same columns there is only the
first one, resolved as either of them tells; they may not tell different things. -/
def addUnique (draft : Draft) (places : List (Nat × Option Collation))
    (resolution : Option Resolution) :
    Except DeclarationFault Draft :=
  let parts := draft.partsAt places
  let relation := draft.relation
  match relation.uniques.find? (fun rule => rule.parts == parts) with
  | none =>
      .ok { draft with
        relation := relation.withUnique { index := relation.nextIndex, parts, resolution } }
  | some rule =>
      if rule.resolution.isSome && resolution.isSome && rule.resolution != resolution then
        .error .conflictingResolutions
      else
        .ok { draft with
          relation := { relation with
            uniques := relation.uniques.map (fun rule =>
              if rule.parts == parts then { rule with resolution := rule.resolution.or resolution }
              else rule) } }

/-- Makes columns the primary key. A single one of integers, unless it counts down, numbers the
rows. -/
def addPrimary (draft : Draft) (parts : Option (List (Expr × Order))) (descends counts : Bool)
    (resolution : Option Resolution) : Except DeclarationFault Draft := do
  if draft.primary.isSome then throw (.keyRepeated draft.relation.name)
  let told := parts.elim [some draft.lastPlace]
    (fun parts => parts.map (fun (e, _) => draft.named? e))
  let places := told.filterMap id
  let computes := places.any draft.isComputed
  let draft := { draft with primary := some places }
  let single : Option Nat :=
    match told with
    | [some place] =>
        if (draft.relation.columns[place]?).any
          (fun column => column.type.lower == utf8 "integer") ∧ !descends then
          some place
        else none
    | _ => none
  match single with
  | some place =>
      refuseNulls (parts.getD [])
      if computes then throw .keyComputed
      return { draft with
        relation := { draft.relation with
          numberColumn := some place, counts, numberResolution := resolution } }
  | none =>
      if counts then throw .keyCannotCount
      if computes then throw .keyComputed
      draft.addUnique (← draft.placesOf parts) resolution

/-! Clauses. -/

def addColumn (draft : Draft) (name type : Text) : Except DeclarationFault Draft :=
  let relation := draft.relation
  if mostColumns ≤ relation.columns.length then .error (.tooManyColumns relation.name)
  else if (relation.placeOf? name).isSome then .error (.repeatedColumn name)
  else
    let column : Column := { name, affinity := Grammar.affinityOfType type, type }
    .ok { draft with
      relation := { relation with columns := relation.columns ++ [column] }, label := none }

/-- The last column has a value where none is given, which cannot be looked up. -/
def addFallback (draft : Draft) (value : Option Expr) : Except DeclarationFault Draft :=
  let column := draft.column
  match value.filter Expr.isConstant with
  | none => .error (.defaultVaries column.name)
  | some e =>
      if column.computed.isSome then .error .defaultComputed
      else .ok (draft.withColumn { column with told := some ((e.eval {}).toOption.getD .null) })

/-- The value of the last column follows from others. A value that is not understood is nothing. -/
def addComputation (draft : Draft) (value : Option Expr) (storage : Option Text) :
    Except DeclarationFault Draft :=
  let column := draft.column
  let isStored := storage.any (fun word => word.lower == utf8 "stored")
  let isVirtual := storage.all (fun word => word.lower == utf8 "virtual")
  if column.told.isSome || column.computed.isSome || !(isStored || isVirtual) then
    .error (.badComputation column.name)
  else if draft.primary.any (fun places => places.contains draft.lastPlace) then .error .keyComputed
  else .ok (draft.withColumn { column with
    computed := some (value.getD (.value .null)), kept := isStored })

/-- What a reference is to is not looked at, but how many columns there are. -/
def checkReference (draft : Draft) (columns : Option (List Text)) (table : Text)
    (count : Option Nat) :
    Except DeclarationFault Unit :=
  match columns with
  | none => if count.all (· == 1) then .ok () else .error (.foreignOne draft.column.name table)
  | some names =>
      if !count.all (· == names.length) then .error .foreignCount
      else
        match names.find? (fun name => (draft.relation.placeOf? name).isNone) with
        | some name => .error (.unknownForeign name)
        | none => .ok ()

def add (draft : Draft) : Clause → Except DeclarationFault Draft
  | .column name type => draft.addColumn name type
  | .label name => .ok { draft with label := name }
  | .fallback value => draft.addFallback value
  | .required resolution => .ok (draft.withColumn { draft.column with required := some resolution })
  | .collation collation => .ok (draft.withColumn { draft.column with collation })
  | .check written condition =>
      let checks :=
        condition.toList.map (fun condition =>
          ({ name := draft.label.getD written, condition } : Check))
      .ok { draft with
        relation := { draft.relation with checks := draft.relation.checks ++ checks } }
  | .computation value storage => draft.addComputation value storage
  | .unique parts resolution => do draft.addUnique (← draft.placesOf parts) resolution
  | .primary parts descends counts resolution => draft.addPrimary parts descends counts resolution
  | .reference columns table count => do
      draft.checkReference columns table count
      return draft
  | .wrong fault => .error fault

/-! The table as a whole. -/

/-- Makes the columns of the primary key need values. -/
def requiring (draft : Draft) (relation : Relation) : Relation :=
  { relation with
    columns := relation.columns.zipIdx.map (fun (column, place) =>
      if draft.primary.any (fun places => places.contains place) &&
        relation.numberColumn != some place then
        { column with required := column.required.or (some .abort) }
      else column) }

/-- The types of cells that a strict table tells apart. -/
def types : List String := ["ANY", "BLOB", "INT", "INTEGER", "REAL", "TEXT"]

def strictColumn (table : Text) (column : Column) : Except DeclarationFault Column :=
  let type := column.type.map upperByte
  if type = utf8 "ANY" then .ok { column with type, affinity := .blob }
  else if types.any (fun known => utf8 known == type) then .ok { column with type }
  else if type.isEmpty then .error (.typeMissing table column.name)
  else .error (.typeUnknown table column.name column.type)

/-- The table with cells of the types of their columns. -/
def strictly (draft : Draft) : Except DeclarationFault Draft := do
  let relation := draft.requiring draft.relation
  let columns ← relation.columns.mapM (strictColumn relation.name)
  return { draft with relation := { relation with strict := true, columns } }

/-- The table with its rows kept under the primary key, which is then needed and unique whatever its
type. -/
def underKey (draft : Draft) : Except DeclarationFault Draft := do
  let relation := draft.relation
  if relation.counts then throw .countsWithoutNumbers
  match draft.primary with
  | none => throw (.keyMissing relation.name)
  | some places =>
      let relation :=
        if relation.numberColumn.isSome then
          relation.withUnique
            { index := relation.nextIndex
              parts := draft.partsAt (places.map (fun place => (place, none)))
              resolution := relation.numberResolution }
        else relation
      return { draft with
        relation := draft.requiring { relation with
          numberColumn := none, numberResolution := none, key := some places } }

/-- Why conditions or values that follow from others are no such thing, if nothing was wrong
earlier. A table cannot do without columns that hold values of their own. Once something is wrong
the rest is hardly looked into. -/
def fault? (relation : Relation) (earlier : Option DeclarationFault) : Option DeclarationFault :=
  let computations := relation.columns.filterMap Column.computed
  let conditions := relation.checks.map Check.condition
  if computations.length = relation.columns.length then some .allComputed
  else
    let checked :=
      match earlier with
      | some fault =>
          some (((conditions.head?).bind (fun e => e.nextMisfit? .check relation)).getD fault)
      | none => conditions.findSome? (fun e => e.misfit? .check relation)
    computations.foldl (fun fault e =>
      match fault with
      | some fault => some (if e.column?.isSome then fault
          else (e.nextMisfit? .computation relation).getD fault)
      | none => e.misfit? .computation relation) checked

/-- The table that all clauses make, if nothing was wrong earlier. -/
def complete (draft : Draft) (isStrict isKeyed : Bool) (earlier : Option DeclarationFault) :
    Except DeclarationFault Relation := do
  let draft ← if isStrict then draft.strictly else .ok draft
  let draft ← if isKeyed then draft.underKey else .ok draft
  match fault? draft.relation earlier with
  | some fault => throw fault
  | none => return draft.relation

end Draft
end CodeAudit
