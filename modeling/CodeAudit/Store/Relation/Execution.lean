import CodeAudit.Store.Relation.Objection

/-!
Adding, changing and dropping rows, with all that triggers do besides. A trigger is not set off by
what it does itself. A row that is refused is passed over, or everything ends there; what has been
done by then is told either way.
-/
namespace CodeAudit

structure Work where
  encoding : TextEncoding := .bytes
  tables : List Relation
  views : List Facade := []
  /-- Tables that are only read. -/
  listed : List Relation := []
  /-- The largest numbers that were given to rows of tables that count. -/
  sequences : List (Text × Int64) := []
  /-- There may be more of these numbers, which cannot be read. -/
  sequencesEnd : Bool := true
  /-- The number of the row that was added last. -/
  lastNumber : Int64 := 0
  /-- How many rows were written. -/
  changes : Nat := 0
  /-- How many rows the last statement wrote, and how many all statements did. -/
  lastChanges : Nat := 0
  allChanges : Nat := 0

/-- Something that is done, and what there is after it even if it does not go on. -/
abbrev Deed (α : Type) := ExceptT Signal (StateM Work) α

/-- What is done before or after an event of a row, with what the statement says about rows that
break a rule. -/
abbrev Reaction := Relation → Bool → Event → Option Resolution → Deed Unit

namespace Work

def table? (work : Work) (name : Text) : Option Relation :=
  work.tables.find? (fun table => table.name.lower = name.lower)

def withTable (work : Work) (relation : Relation) : Work :=
  { work with
    tables := work.tables.map (fun table => if table.name = relation.name then relation
      else table) }

def sequence (work : Work) (relation : Relation) : Int64 :=
  ((work.sequences.find? (fun (name, _) => name = relation.name)).map Prod.snd).getD 0

/-- The number may be among those that cannot be read. -/
def mayLack (work : Work) (relation : Relation) : Bool :=
  !work.sequencesEnd && work.sequences.all (fun (name, _) => name != relation.name)

def count (work : Work) (relation : Relation) (number : Int64) : Work :=
  if relation.counts then
    { work with
      sequences := (relation.name, max (work.sequence relation) number) ::
        work.sequences.filter (fun (name, _) => name != relation.name) }
  else work

def setting (work : Work) (scopes : List Scope) : Setting :=
  { encoding := work.encoding, tables := work.tables ++ work.listed, lastNumber := work.lastNumber
    changes := work.lastChanges, allChanges := work.allChanges, scopes }

/-- The work after a statement. What it wrote is counted, unless it was undone. -/
def ended (work : Work) (undone : Bool) : Work :=
  let changes := if undone then 0 else work.changes
  { work with lastChanges := changes, allChanges := work.allChanges + changes, changes := 0 }

end Work

namespace Deed

def lift {α : Type} (outcome : Except Signal α) : Deed α :=
  match outcome with
  | .ok value => pure value
  | .error signal => throw signal

def fault {α : Type} (cause : EngineFault) : Deed α := throw (.fault cause)

def current (relation : Relation) : Deed Relation := do
  return ((← get).table? relation.name).getD relation

def passing (deed : Deed Unit) : Deed Unit :=
  tryCatch deed (fun signal =>
    match signal with
    | .refused _ .skip => pure ()
    | signal => throw signal)

/-- What is done instead of refusing a row that repeats another one, if anything: by what it
repeats, from the row in the way and the new one. -/
abbrev Relief := Option UniqueRule → Option (Row → Row → Deed Unit)

def obstacle? (relation : Relation) (kept : Option Int64) (row : Row) (rule : Option UniqueRule) :
    Deed (Option Row) := do
  let relation ← current relation
  match rule with
  | some rule => lift (relation.clashing? (← get).encoding rule kept row)
  | none =>
      if some row.number = kept then return none
      if relation.hides row.number then fault .damaged
      return relation.find? row.number

/-- Takes a row off the indexes that a change concerns. It has to be found there. -/
def unlist (relation : Relation) (concerns : Index → Bool) (row : Row) : Deed Unit := do
  let relation ← current relation
  let encoding := (← get).encoding
  if relation.isClosed || !row.unread.isEmpty then fault .damaged
  (relation.indexes.filter concerns).forM (fun index => do
    if index.isLost || index.isClosed || index.missing.contains row.number then
      if (← lift (relation.listedUnder encoding index.parts index.condition row)).isSome then
        fault .damaged)

/-- Puts a row on the indexes that a change concerns. If one of them takes nothing, the row stays on
those before it. -/
def list (relation : Relation) (concerns : Index → Bool) (row : Row) : Deed Unit := do
  let relation ← current relation
  let encoding := (← get).encoding
  let listed (index : Index) : Deed (Option (List Cell)) :=
    lift (relation.listedUnder encoding index.parts index.condition row)
  let refuses (index : Index) : Deed Bool := do
    if index.isLost || index.isClosed then return (← listed index).isSome else return false
  let refusal? ← (relation.indexes.filter concerns).findM? refuses
  if refusal?.isSome || relation.isClosed then
    let before :=
      relation.indexes.takeWhile
      (fun index => refusal?.all (fun refusal => refusal.name != index.name))
    let added ← before.mapM (fun index => do
      let key? ← listed index
      return { index with
        strays := (key?.map (fun key => (key, row.number))).toList ++ index.strays })
    modify (fun work =>
      work.withTable { relation with indexes := added ++ relation.indexes.drop before.length })
    fault .damaged

/-- Refuses a row that repeats another one, or takes the other one away. After something else is
done instead the row is passed over. -/
def clear (relation : Relation) (override : Option Resolution) (relief : Relief) (row : Row)
    (kept : Option Int64) (rule : Option UniqueRule) : Deed Unit := do
  match ← obstacle? relation kept row rule with
  | none => return
  | some other =>
      let cause := (rule.map relation.repeats).getD relation.repeatsNumber
      let own := (rule.map UniqueRule.resolves).getD (relation.numberResolution.getD .abort)
      match relief rule, override.getD own with
      | some deed, _ =>
          deed other row
          throw (.refused cause .skip)
      | none, .replace =>
          unlist relation (fun _ => true) other
          modify (fun work =>
            work.withTable (((work.table? relation.name).getD relation).without other.number))
      | none, resolution => throw (.refused cause resolution)

def shown (relation : Relation) (row : Row) : Deed Row := do
  let row ← lift (relation.settled (← get).encoding row)
  lift (relation.typed true row)
  return row

/-- Writes a row that keeps all rules, in the place of the one with the number `kept`. -/
def write (relation : Relation) (override : Option Resolution) (targets : List Amendment.Target)
    (relief : Relief) (touched : Touched) (kept : Option Int64) (row : Row) : Deed Row := do
  let encoding := (← get).encoding
  let row ← lift (relation.settled encoding row)
  let row ← lift (relation.checked encoding override touched row)
  let moves := kept.any (fun number => number ≠ row.number)
  let concerns (index : Index) : Bool := moves || touched.meets index.mentions
  let uniqueness := (relation.uniqueness override targets).filter (fun rule =>
    rule.all (fun rule => concerns rule.toIndex))
  (uniqueness.takeWhile Option.isNone).forM (clear relation override relief row kept)
  lift (relation.typed true row)
  (uniqueness.dropWhile Option.isNone).forM (clear relation override relief row kept)
  let old? := kept.bind (← current relation).find?
  old?.forM (unlist relation concerns)
  list relation concerns row
  let relation ← current relation
  let relation := (kept.map relation.without).getD relation
  modify (fun work => { work.withTable (relation.withRow row) with changes := work.changes + 1 })
  return row

def numberOf (value : Cell) : Deed (Option Int64) :=
  match value.prefer .integer with
  | .integer number => pure (some number)
  | .null => pure none
  | _ => fault .typeMismatch

/-- The values that the columns of a new row get, and what is told of its number. -/
def valuesFor (relation : Relation) (values : List (Text × Cell)) : List Cell × Cell :=
  let told (column : Column) : Option Cell :=
    (values.find? (fun (name, _) => name.lower = column.name.lower)).map Prod.snd
  (relation.columns.map (fun column => (told column).getD column.fallback),
    ((values.find? (fun (name, _) => relation.namesNumber name)).map Prod.snd).getD .null)

def cellsWith (relation : Relation) (told : List (Text × Cell)) (row : Row) : List Cell :=
  (relation.columns.zip row.cells).map (fun (column, cell) =>
    ((told.find? (fun (name, _) => name.lower = column.name.lower)).map Prod.snd).getD cell)

/-- Stops where something cannot be read. -/
def demand (legible : Bool) : Deed Unit := if legible then pure () else fault .damaged

/-- The number that a row gets when it is changed, which may be told with its values. -/
def numberAfter (relation : Relation) (told : List (Text × Cell)) (number : Int64) : Deed Int64 :=
  match told.find? (fun (name, _) => relation.namesNumber name) with
  | none => pure number
  | some (_, cell) => do
      match ← numberOf cell with
      | some next => pure next
      | none => fault .typeMismatch

/-- Shows a row to the triggers before it is written, if there are any. -/
def announce (react : Reaction) (override : Option Resolution) (relation : Relation)
    (event : Row → Event) (row : Row) : Deed Unit :=
  if (relation.triggersFor false (event row)).isEmpty then pure ()
  else do react relation false (event (← shown relation row)) override

/-- Writes the changes of a row, if it is still there. -/
def rewrite (react : Reaction) (override : Option Resolution) (relation : Relation)
    (names : List Text) (event : Row → Event) (changed : Row → Row) (number : Int64) :
    Deed Unit := do
  let relation ← current relation
  match relation.find? number with
  | none => pure ()
  | some now =>
      let row ← write relation override [] (fun _ => none) (some (relation.changing names))
        (some number)
        (changed now)
      react relation true (event row) override

/-- Gives values to the columns of some names in a row, if it is still there. -/
def changeRow (react : Reaction) (override : Option Resolution) (relation : Relation)
    (names : List Text) (assign : Row → Deed (List (Text × Cell))) (number : Int64) :
    Deed Unit := do
  let relation ← current relation
  demand !(relation.hides number)
  match relation.find? number with
  | none => pure ()
  | some old =>
      demand old.unread.isEmpty
      let told ← assign old
      passing do
        let next ← numberAfter relation told number
        let changed (row : Row) : Row := { number := next, cells := cellsWith relation told row }
        let event (new : Row) : Event := .change names old new
        announce react override relation event (changed old)
        rewrite react override relation names event changed number

/-- The values for columns, where some rows are looked at. -/
def assigned (values : List (List Text × Expr)) (scopes : List Scope) :
    Deed (List (Text × Cell)) := do
  let s := (← get).setting scopes
  let told ← lift (values.mapM (fun (names, e) => do return names.zip (← e.values s)))
  return told.flatten

/-- What a statement sees beside the rows around it. -/
def beside (foci : List Focus) (outer : List Scope) : List Scope :=
  { foci, isQuery := false } :: outer

/-- Does what an amendment says to the row in the way of a new one. -/
def amend (react : Reaction) (relation : Relation) (outer : List Scope) (amendment : Amendment)
    (other new : Row) :
    Deed Unit := do
  let scopes (row : Row) : List Scope := beside (Step.rivals relation row new) outer
  match amendment.values with
  | none => return
  | some values =>
      if (← lift (amendment.condition.eval ((← get).setting (scopes other)))).isTrue then
        changeRow react (some .abort) relation (values.flatMap Prod.fst)
          (fun row => assigned values (scopes row))
          other.number

/-- The number of a new row: the one that is told, or else the next one. -/
def numberFor (relation : Relation) (told : Option Int64) : Deed Int64 :=
  match told with
  | some number => pure number
  | none => do
      demand !relation.hidesLast
      match relation.nextNumber? ((← get).sequence relation) with
      | some number => pure number
      | none => fault .full

def remember (relation : Relation) (number : Int64) : Deed Unit :=
  modify (fun work => if relation.key.isNone then { work with lastNumber := number } else work)

/-- What amendments do instead of refusing a row, each about what it is about. -/
def reliefOf (react : Reaction) (relation : Relation) (outer : List Scope)
    (told : List (Amendment.Target × Amendment)) : Relief := fun rule =>
  (told.find? (fun (target, _) => target.covers rule)).map (fun (_, amendment) =>
    amend react relation outer amendment)

def insertRow (react : Reaction) (override : Option Resolution) (relation : Relation)
    (amendments : List Amendment) (outer : List Scope) (values : List (Text × Cell)) :
    Deed Unit := passing do
  demand !(relation.counts && (← get).mayLack relation)
  let (cells, number) := valuesFor relation values
  let told ← numberOf number
  announce react override relation .insertion { number := told.getD (-1), cells }
  let relation ← current relation
  let number ← numberFor relation told
  modify (·.count relation number)
  let told := amendments.filterMap (fun amendment =>
    (amendment.target? relation).map (fun target => (target, amendment)))
  let row ← write relation override (told.map Prod.fst)
    (reliefOf react relation outer told) none none
    { number, cells }
  remember relation number
  react relation true (.insertion row) override

def dropRow (react : Reaction) (override : Option Resolution) (relation : Relation)
    (number : Int64) :
    Deed Unit := do
  let relation ← current relation
  if relation.hides number then fault .damaged
  match relation.find? number with
  | none => return
  | some row =>
      passing do
        react relation false (.deletion row) override
        let relation ← current relation
        if (relation.find? number).isNone then return
        unlist relation (fun _ => true) row
        modify (fun work => { work.withTable (relation.without number) with
          changes := work.changes + 1 })
        react relation true (.deletion row) override

def found (relation : Relation) (condition : Expr) (outer : List Scope) : Deed (List Int64) := do
  let s := (← get).setting outer
  let focus := Focus.ofTable relation
  let rows ← lift ((← lift relation.scanned).filterM (fun row => do
    return (← condition.eval (s.beside [focus.withRow row])).isTrue))
  return rows.map Row.number

/-- The values for columns of rows that go together with rows of other sources. -/
def assignedFrom (focus : Focus) (rows : List Row) (values : List (List Text × Expr))
    (sources : Sources) (condition : Expr) (outer : List Scope) :
    Deed (List (Row × List (Text × Cell))) := do
  let s := (← get).setting outer
  let found ← lift (do
    let together ← sources.rows s .unordered [focus] (rows.map (fun row => [focus.withRow row]))
    together.filterM (fun foci => do return (← condition.eval (s.within foci)).isTrue))
  found.mapM (fun foci => do
    return ((foci.head?.map Focus.row).getD Event.noRow, ← assigned values ({ foci } :: outer)))

/-- Changes the rows of a table that meet a condition, those that go together with several rows of
other sources as the last of these tells. -/
def changeRows (react : Reaction) (override : Option Resolution) (relation : Relation)
    (values : List (List Text × Expr)) (sources : Sources) (condition : Expr) (outer : List Scope) :
    Deed Unit := do
  let focus := Focus.ofTable relation
  let change := changeRow react override relation (values.flatMap Prod.fst)
  if sources = .nil then
    (← found relation condition outer).forM (change (fun row =>
      assigned values (beside [focus.withRow row] outer)))
  else
    let told ← assignedFrom focus (← lift relation.scanned) values sources condition outer
    let last :=
      relation.rows.filterMap
      (fun row => told.reverse.find? (fun (other, _) => other.number = row.number))
    last.forM (fun (row, told) => change (fun _ => pure told) row.number)

/-! Views, which nothing is written to. -/

/-- The rows of a view that meet a condition, numbered in their order. -/
def viewRows (facade : Facade) (condition : Expr) (outer : List Scope) : Deed (List Row) := do
  let rows ← lift ((facade.query condition).rows ((← get).setting outer) .all)
  return rows.zipIdx.map (fun (cells, place) => { number := Int64.ofNat place, cells })

/-- Does what triggers do instead of adding a row to a view. -/
def insertInstead (react : Reaction) (override : Option Resolution) (relation : Relation)
    (values : List (Text × Cell)) : Deed Unit :=
  passing (react relation false
    (.insertion { number := -1, cells := (valuesFor relation values).1 }) override)

def changeInstead (react : Reaction) (override : Option Resolution) (facade : Facade)
    (relation : Relation) (values : List (List Text × Expr)) (sources : Sources) (condition : Expr)
    (outer : List Scope) :
    Deed Unit := do
  let focus : Focus := { name := relation.name, relation }
  let change (old : Row) (told : List (Text × Cell)) : Deed Unit :=
    let new : Row := { old with cells := cellsWith relation told old }
    passing (react relation false (.change (values.flatMap Prod.fst) old new) override)
  if sources = .nil then
    (← viewRows facade condition outer).forM (fun row => do
      change row (← assigned values (beside [focus.withRow row] outer)))
  else
    let rows ← viewRows facade .always outer
    (← assignedFrom focus rows values sources condition outer).forM
      (fun (row, told) => change row told)

/-- Does what triggers do instead of dropping rows of a view. -/
def dropInstead (react : Reaction) (override : Option Resolution) (facade : Facade)
    (relation : Relation) (condition : Expr) (outer : List Scope) : Deed Unit := do
  (← viewRows facade condition outer).forM
    (fun row => passing (react relation false (.deletion row) override))

end Deed

namespace Step

/-- Does a step that writes, and counts what it wrote. -/
def counting (deed : Deed Unit) : Deed Unit := do
  deed
  modify (fun work => work.ended false)

/-- What is done to a table, or instead of doing it to a view. -/
def about (work : Work) (outer : List Scope) (table : Text) (ofTable : Relation → Deed Unit)
    (ofView : Facade → Relation → Deed Unit) : Deed Unit :=
  match work.table? table, Catalog.view? work.views table with
  | some relation, _ => counting (ofTable relation)
  | none, some facade => counting (ofView facade (facade.relation (work.setting outer)))
  | none, none => pure ()

def perform (react : Reaction) (override : Option Resolution) (outer : List Scope) (step : Step) :
    Deed Unit := do
  let work ← get
  match step with
  | look query =>
      let _ ← Deed.lift (query.unsorted.rows (work.setting outer) .all)
      return
  | insert resolution table columns rows amendments =>
      let override := override.or resolution
      let given (relation : Relation) : Deed (List (List (Text × Cell))) := do
        let names := if columns.isEmpty then relation.givenColumns else columns
        return (← Deed.lift (rows.rows (work.setting outer) .all)).map names.zip
      about work outer table
        (fun relation => do
          (← given relation).forM (Deed.insertRow react override relation amendments outer))
        (fun _ relation => do (← given relation).forM (Deed.insertInstead react override relation))
  | change resolution table values sources condition =>
      let override := override.or resolution
      about work outer table
        (fun relation => Deed.changeRows react override relation values sources condition outer)
        (fun facade relation => Deed.changeInstead react override facade relation values sources
          condition outer)
  | drop table condition =>
      about work outer table
        (fun relation => do
          (← Deed.found relation condition outer).forM (Deed.dropRow react override relation))
        (fun facade relation => Deed.dropInstead react override facade relation condition outer)

end Step

namespace Trigger

def run (react : Reaction) (override : Option Resolution) (outer : List Scope) (trigger : Trigger) :
    Deed Unit := do
  if (← Deed.lift (trigger.condition.eval ((← get).setting outer))).isTrue then
    trigger.steps.forM (Step.perform react override outer)

/-- Keeps the number of the last row and those of changes, whatever is done in between. -/
def apart (deed : Deed Unit) : Deed Unit := do
  let before ← get
  let settle (work : Work) : Work :=
    { work with
      lastNumber := before.lastNumber, changes := before.changes,
      lastChanges := before.lastChanges }
  modify (fun work => { work with changes := 0 })
  tryCatch deed (fun signal => do
    modify settle
    throw signal)
  modify settle

end Trigger

namespace Deed

/-- Sets off triggers, except for those that are active. Each round makes one more active, so their
number bounds the rounds. -/
def reactWith : Nat → List Text → Reaction
  | 0, _ => fun _ _ _ _ => pure ()
  | fuel + 1, active => fun relation after event override => do
      let relation ← current relation
      (relation.triggersFor after event).forM (fun trigger =>
        if active.contains trigger.name then pure ()
        else
          Trigger.apart (trigger.run (reactWith fuel (trigger.name :: active)) override
            [{ foci := event.foci relation, isQuery := false }]))

def react : Reaction := fun relation after event override => do
  let work ← get
  reactWith (Catalog.triggerCount { tables := work.tables, views := work.views }) [] relation after
    event override

end Deed
end CodeAudit
