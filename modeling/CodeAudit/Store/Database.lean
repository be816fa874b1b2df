import CodeAudit.Store.Connection
import CodeAudit.Store.Relation.Execution
import CodeAudit.Store.Relation.Listing
import CodeAudit.Store.Relation.Search
import CodeAudit.Store.Table

/-!
Stores over databases that hold more than the table of tasks, or a table of tasks that was not made
here. The table and its indexes are added where they are missing; a table that is there is used as
it is.
-/
namespace CodeAudit

structure Database where
  encoding : TextEncoding := .bytes
  entries : List CatalogEntry := []
  tables : List Relation := []
  views : List Facade := []
  /-- What the catalog holds. -/
  listed : List Row := []
deriving DecidableEq

/-! The table of tasks. -/

namespace Relation

def tasksName : String := "project_task"

def textColumn (name : String) : Column :=
  { name := utf8 name, affinity := .text, type := utf8 "TEXT", required := some .abort,
    told := some (.text []) }

def integerColumn (name : String) : Column :=
  { name := utf8 name, affinity := .integer, type := utf8 "INTEGER" }

/-- The table of tasks as it is made here. -/
def forTasks : Relation :=
  { name := utf8 tasksName
    columns :=
      [integerColumn "id"] ++
      ["uuid", "project_id"].map (fun name => { textColumn name with told := none }) ++
      ["name", "content", "rule", "rule_key", "result", "contract_code", "start_line", "end_line",
        "relative_file_path", "absolute_file_path", "recommendation", "business_flow_code"].map
          textColumn ++
      [{ integerColumn "if_business_flow_scan" with
        required := some .abort, told := some (.integer 0) },
       { textColumn "group_id" with required := none, told := none }] ++
      ["scan_record", "short_result"].map textColumn ++
      [{ integerColumn "created_at_ms" with required := some .abort }]
    numberColumn := some 0
    counts := true
    uniques :=
      [{ index := utf8 ("sqlite_autoindex_" ++ tasksName ++ "_1"),
         parts := [(.column (utf8 "uuid"), .binary)] }] }

def isNamed (relation : Relation) (name : String) : Bool := relation.name.lower == utf8 name

/-- What a task puts into the columns after its id. -/
def taskValues (encoding : TextEncoding) (t : Task) : List (String × Cell) :=
  Task.insertColumns.zip (t.bound encoding)

/-- The task that a row is read as. -/
def taskOf (relation : Relation) (encoding : TextEncoding) (row : Row) : Task :=
  .ofCells encoding (Task.readColumns.map (relation.value row))

/-- The first of some columns that the table does not have. -/
def missing? (relation : Relation) (columns : List String) : Option String :=
  columns.find? (fun name => (relation.place? name).isNone)

/-- Why a value cannot be compared with those of a column. -/
def collationFault? (relation : Relation) (name : String) : Option EngineFault := do
  let place ← relation.place? name
  if relation.numberColumn = some place then none else (← relation.columns[place]?).collation.fault?

/-- Why rows cannot be listed by a column. -/
def columnFault? (relation : Relation) (name : String) : Option EngineFault :=
  if (relation.place? name).isNone then some (.noColumn (utf8 name))
  else relation.collationFault? name

/-- The row of a number with values for some columns, each as its column prefers it. -/
def rowOf (relation : Relation) (number : Int64) (values : List (String × Cell)) : Row :=
  { number
    cells := relation.columns.map (fun column =>
      let given := values.find? (fun v => column.name.lower = utf8 v.1)
      ((given.map Prod.snd).getD column.fallback).prefer column.affinity) }

/-! The table of the largest numbers that were given to rows of other tables. -/

def sequencesName : String := "sqlite_sequence"

def forSequences : Relation :=
  { name := utf8 sequencesName, columns := [{ name := utf8 "name" }, { name := utf8 "seq" }] }

/-- The table that a row is about, and the number. -/
def sequenceOf? (row : Row) : Option (Text × Int64) :=
  match row.cells with
  | .text name :: number :: _ => some (name, number.number)
  | _ => none

/-- Records the number of a table. -/
def recorded (relation : Relation) (sequence : Text × Int64) : Relation :=
  let cells : List Cell := [.text sequence.1, .integer sequence.2]
  match relation.rows.find?
    (fun row => (sequenceOf? row).any (fun (name, _) => name == sequence.1)) with
  | some row => (relation.without row.number).withRow { row with cells }
  | none => relation.withRow { number := (relation.nextNumber? 0).getD 0, cells }

end Relation

namespace Database

def table? (database : Database) (name : String) : Option Relation :=
  database.tables.find? (fun table => table.isNamed name)

def tasks (database : Database) : Option Relation := database.table? Relation.tasksName

/-- The database with a table in the place of the one of its name. -/
def withTable (database : Database) (relation : Relation) : Database :=
  { database with
    tables := database.tables.map (fun table => if table.name.lower = relation.name.lower then
      relation else table) }

/-- The largest numbers that were given to rows, as far as they can be read, and whether these are
all. -/
def sequences (database : Database) : List (Text × Int64) × Bool :=
  match database.table? Relation.sequencesName with
  | some relation =>
      let rows := relation.reached
      let legible := rows.takeWhile (fun row => row.unread.isEmpty)
      (legible.filterMap Relation.sequenceOf?, relation.gaps.isEmpty &&
        legible.length == rows.length)
  | none => ([], true)

def projectIndex : String := "idx_project_task_project"

def groupIndex : String := "idx_project_task_group"

/-- The declaration that the catalog lists for the table of tasks. -/
def tableDeclaration : String :=
  "CREATE TABLE project_task ( id INTEGER PRIMARY KEY AUTOINCREMENT, uuid TEXT NOT NULL" ++
  " UNIQUE, project_id TEXT NOT NULL, name TEXT NOT NULL DEFAULT '', content TEXT NOT NULL" ++
  " DEFAULT '', rule TEXT NOT NULL DEFAULT '', rule_key TEXT NOT NULL DEFAULT '', result TEXT" ++
  " NOT NULL DEFAULT '', contract_code TEXT NOT NULL DEFAULT '', start_line TEXT NOT NULL" ++
  " DEFAULT '', end_line TEXT NOT NULL DEFAULT '', relative_file_path TEXT NOT NULL DEFAULT" ++
  " '', absolute_file_path TEXT NOT NULL DEFAULT '', recommendation TEXT NOT NULL DEFAULT ''," ++
  " business_flow_code TEXT NOT NULL DEFAULT '', if_business_flow_scan INTEGER NOT NULL" ++
  " DEFAULT 0, group_id TEXT, scan_record TEXT NOT NULL DEFAULT '', short_result TEXT NOT" ++
  " NULL DEFAULT '', created_at_ms INTEGER NOT NULL)"

/-- The declaration that the catalog lists for an index over a column and the id. -/
def indexDeclaration (name column : String) : String :=
  "CREATE INDEX " ++ name ++ " ON project_task(" ++ column ++ ", id)"

/-- The database with another entry in its catalog, which starts after all others. -/
def lists (database : Database) (kind name table declaration : String) : Database :=
  let roots := database.listed.map (fun row => (row.cells.getD 3 .null).number)
  let number := ((database.listed.getLast?).map Row.number).getD 0 + 1
  let texts := [kind, name, table].map (fun text => Cell.text (utf8 text))
  let cells := texts ++ [.integer (roots.foldl max 1 + 1), .text (utf8 declaration)]
  { database with listed := database.listed ++ [{ number, cells }] }

/-- The name belongs to something of one of the kinds. -/
def has (database : Database) (kinds : List CatalogKind) (name : String) : Bool :=
  database.entries.any (fun entry => kinds.contains entry.kind && entry.name.lower == utf8 name)

/-- The name can stand for a table in a statement. -/
def hasTableLike (database : Database) (name : String) : Bool :=
  (database.table? name).isSome || database.has [.view, .virtualTable] name

/-- Makes the table of tasks unless something that can stand for it is there. -/
def withTasks (permit : Except EngineFault Unit) (database : Database) :
    Except EngineFault Database := do
  if database.hasTableLike Relation.tasksName then return database
  if database.has [.index] Relation.tasksName then throw (.nameTaken "an index" Relation.tasksName)
  permit
  let sequences := if (database.table? Relation.sequencesName).isSome then []
    else [Relation.forSequences]
  return ({ database with tables := database.tables ++ .forTasks :: sequences } : Database).lists
    "table"
    Relation.tasksName Relation.tasksName tableDeclaration

/-- The database with an index over a column of the table of tasks and its id. -/
def listing (database : Database) (tasks : Relation) (name column : String) : Database :=
  let part (name : String) : Option (Expr × Collation) :=
    (tasks.columns.find? (fun column => column.name.lower == utf8 name)).map (fun column =>
      (.column column.name, column.collation))
  let index : Index := { name := utf8 name, parts := [column, "id"].filterMap part }
  { (database.lists "index" name Relation.tasksName (indexDeclaration name column)).withTable
    (tasks.withIndex index) with
    entries := database.entries ++ [{ kind := .index, name := utf8 name, belongs := true }] }

/-- The rows can be read as far as an index over a column and the id needs. -/
def canList (tasks : Relation) (column : String) : Bool :=
  tasks.gaps.isEmpty &&
    tasks.rows.all (fun row =>
      ([column, "id"].filterMap tasks.place?).all (fun place => !row.unread.contains place))

/-- Makes an index over a column and the id, which takes reading them in all rows. An index of the
name is left as it is. -/
def withIndex (permit : Except EngineFault Unit) (name column : String) (database : Database) :
    Except EngineFault Database := do
  match database.tasks with
  | none =>
      throw (if database.has [.virtualTable] Relation.tasksName then .virtualNotIndexed
        else .viewNotIndexed)
  | some tasks =>
      if database.hasTableLike name then throw (.nameTaken "a table" name)
      if database.has [.index] name then return database
      match [column, "id"].findSome? tasks.columnFault? with
      | some fault => throw fault
      | none =>
          permit
          if canList tasks column then return database.listing tasks name column else throw .damaged

/-- Adds what is missing. `permit` is asked before anything is added. -/
def prepare (permit : Except EngineFault Unit) (database : Database) :
    Except EngineFault Database := do
  let database ← database.withTasks permit
  let database ← database.withIndex permit projectIndex "project_id"
  database.withIndex permit groupIndex "group_id"

/-- All pages of the table of tasks can be reached, and all rows of what it counts. -/
def canDrop (database : Database) (tasks : Relation) : Bool :=
  tasks.gaps.isEmpty && tasks.indexes.all (fun index => !index.isLost) &&
    (!tasks.counts || database.sequences.2)

/-- The database without the table of tasks and all that belongs to it. -/
def without (database : Database) (tasks : Relation) : Database :=
  let isOther (row : Row) : Bool :=
    (Relation.sequenceOf? row).all (fun (name, _) => name != tasks.name)
  { database with
    tables := (database.tables.filter (fun table => !table.isNamed Relation.tasksName)).map
      (fun table =>
      if tasks.counts && table.isNamed Relation.sequencesName then
        { table with rows := table.rows.filter isOther }
      else table)
    entries := database.entries.filter (fun entry => !entry.belongs)
    listed := database.listed.filter (fun row =>
      !(row.cells.getD 2 .null).equals .nocase (.text (utf8 Relation.tasksName))) }

/-- A row that holds what a task is stored as, if it does. -/
def storedTask? (relation : Relation) (row : Row) : Option Task :=
  let task := relation.taskOf .bytes row
  let isPlain : Cell → Bool
    | .text value => !value.contains 0
    | .null | .integer _ => true
    | _ => false
  let same :=
    relation.rowOf row.number (("id", .integer row.number) :: Relation.taskValues .bytes task)
  if row.cells.all isPlain && relation.columns.zipIdx.all (fun (_, place) =>
      relation.cell row place == relation.cell same place) then some task
  else none

/-- The table of tasks, if there is nothing else and it could have been made here. -/
def taskTable? (database : Database) : Option TaskTable := do
  let tasks ← database.tasks
  let ownIndex (entry : CatalogEntry) : Bool :=
    entry.kind == .index && (entry.name == utf8 projectIndex || entry.name == utf8 groupIndex)
  let ownTable (table : Relation) : Bool :=
    table.isSound && (table.isNamed Relation.tasksName ||
      (table.isNamed Relation.sequencesName && table.rows.isEmpty))
  if { tasks with rows := [], indexes := [] } = .forTasks ∧ database.encoding = .bytes ∧
    database.entries.all ownIndex ∧
      database.tables.all ownTable then
    let rows ← tasks.rows.mapM (storedTask? tasks)
    some { rows }
  else none

/-- The catalog as a table, under each of its names. -/
def catalogs (database : Database) : List Relation :=
  Catalog.ownNames.map (fun name => { Listing.catalog with name, rows := database.listed })

/-- What statements find. -/
def catalog (database : Database) : Catalog :=
  { tables := database.tables ++ database.catalogs
    views := database.views
    others := (database.entries.filter (fun entry => entry.kind == .virtualTable)).map (fun entry =>
      (entry.name, entry.keeper)) }

end Database

/-- A connection to a database. -/
structure DatabaseStore where
  connection : Connection Database
  /-- The number of the last row that was added. -/
  lastNumber : Int64 := 0
  /-- How many rows the last statement wrote, and how many all statements did. -/
  changes : Nat := 0
  allChanges : Nat := 0
  /-- The open transaction has come across damage. It may not write any more, and cannot be
  committed. -/
  harmed : Bool := false
deriving DecidableEq

namespace DatabaseStore

def contents (store : DatabaseStore) : Database := store.connection.contents

def withContents (store : DatabaseStore) (contents : Database) : DatabaseStore :=
  { store with connection := { store.connection with contents } }

/-- The store over a connection that something was done to. Harm ends with the transaction. -/
def reconnected (store : DatabaseStore) (connection : Connection Database) : DatabaseStore :=
  { store with connection, harmed := store.harmed && connection.restore.isSome }

def abandoned (store : DatabaseStore) : DatabaseStore := store.reconnected store.connection.abandon

/-- The store after a statement came across damage. -/
def harm (store : DatabaseStore) : DatabaseStore :=
  { store with harmed := store.harmed || store.connection.restore.isSome }

/-- The store after a statement failed for some cause. -/
def failed (store : DatabaseStore) (cause : EngineFault) : DatabaseStore :=
  if cause = .damaged then store.harm else store

/-- Why no statement may write. -/
def refusal? (store : DatabaseStore) : Option EngineFault :=
  if store.harmed && !store.connection.readOnly then some .damaged
  else if store.connection.refusesWrites then some .readOnly
  else none

/-- What a statement starts from. -/
def work (store : DatabaseStore) : Work :=
  { encoding := store.contents.encoding
    tables := store.contents.tables
    views := store.contents.views
    listed := store.contents.catalogs
    sequences := store.contents.sequences.1
    sequencesEnd := store.contents.sequences.2
    lastNumber := store.lastNumber
    lastChanges := store.changes
    allChanges := store.allChanges }

/-- The store after a statement did its work. Numbers that were given are recorded at its end
only. -/
def worked (store : DatabaseStore) (work : Work) (ended : Bool) : DatabaseStore :=
  let database := { store.contents with tables := work.tables }
  let before := database.sequences.1
  let news := if ended then work.sequences.filter (fun sequence => !before.contains sequence)
    else []
  match database.table? Relation.sequencesName with
  | some table => store.withContents (database.withTable (news.foldl Relation.recorded table))
  | none => store.withContents database

/-- The table of tasks, for a statement that writes to it unless something is wrong with it. -/
def writable (store : DatabaseStore) (complaint? : Relation → Option EngineFault) (event : Event) :
    Except EngineFault Relation :=
  match store.contents.tasks with
  | none => .error .noTable
  | some tasks =>
      match (complaint? tasks).or (store.contents.catalog.complaint? tasks event) with
      | some cause => .error cause
      | none =>
          match store.refusal? with
          | some cause => .error cause
          | none => .ok tasks

/-- What a statement that was refused leaves. Running out of numbers drops the open transaction, and
what came across damage leaves there what it did before, unless that can be undone by itself. -/
def refused (store : DatabaseStore) (tasks : Relation) (signal : Signal) (work : Work) :
    DatabaseStore :=
  match signal with
  | .refused _ .stop => store.worked work false
  | .refused _ .rollback => store.abandoned
  | .fault .full => if tasks.undoesInsertion then store else store.abandoned
  | .fault .damaged =>
      if store.connection.restore.isNone ∨ tasks.undoesInsertion then store.harm
      else (store.worked work false).harm
  | _ => store

/-- Does what a statement does to the table of tasks, and answers how many rows it wrote. -/
def execute (store : DatabaseStore) (tasks : Relation) (deed : Deed Unit)
    (refusal : Violation → StoreError) :
    Except StoreError Nat × DatabaseStore :=
  let (outcome, work) := deed.run store.work
  let (status, store) : Except StoreError Nat × DatabaseStore :=
    match outcome with
    | .ok () => (.ok work.changes, store.worked work true)
    | .error signal =>
        (match signal with
          | .refused cause _ => .error (refusal cause)
          | .fault cause => .error (.engine cause),
          store.refused tasks signal work)
  let isUndone :=
    match outcome with
    | .ok () | .error (.refused _ .stop) => false
    | .error _ => true
  let ended := work.ended isUndone
  (status,
    { store with
      lastNumber := work.lastNumber, changes := ended.lastChanges, allChanges := ended.allChanges })

def insert (fresh : Fresh) (task : Task) (store : DatabaseStore) : Insertion × DatabaseStore :=
  let task := task.fill fresh
  let encoding := store.contents.encoding
  let values :=
    if task.id = 0 then (Task.insertColumns.map utf8).zip (task.bound encoding)
    else (Task.insertColumnsWithId.map utf8).zip (task.boundWithId encoding)
  let complaint? (tasks : Relation) : Option EngineFault :=
    tasks.insertionComplaint? (utf8 Relation.tasksName) (values.map Prod.fst)
  match store.writable complaint? (.insertion Event.noRow) with
  | .error cause => ({ status := .error (.engine cause), task }, store)
  | .ok tasks =>
      let (written, store) :=
        store.execute tasks (Deed.insertRow Deed.react none tasks [] [] values) .conflict
      let status := written.map (fun _ => ())
      let numbered := if task.id = 0 ∧ status.isOk then
        { task with id := store.lastNumber.toUInt64 } else task
      ({ status, task := numbered }, store)

def keptText (store : DatabaseStore) (value : Text) : Cell :=
  .text (store.contents.encoding.keep value)

/-- The rows with a value in a column that meet a condition on another one, in the order of their
ids. -/
def select (store : DatabaseStore) (column : String) (value : Cell)
    (also : Option (String × (Relation → Row → Bool))) :
    Except EngineFault (Relation × Search) :=
  match store.contents.tasks with
  | none => .error .noTable
  | some tasks =>
      let compared := (if column = "id" then [] else ["id"]) ++ column :: (also.map Prod.fst).toList
      let missing := (tasks.missing? Task.readColumns).map
        (fun column => EngineFault.noColumn (utf8 column))
      match missing.or (compared.findSome? tasks.collationFault?) with
      | some fault => .error fault
      | none =>
          let found := tasks.search column value
          let found :=
            match also with
            | some (name, meets) => found.keep (tasks.place? name).toList (meets tasks)
            | none => found
          .ok (tasks, found.keep (Task.readColumns.filterMap tasks.place?) (fun _ => true))

/-- The tasks that are found; what keeps more from being found is logged, and a query that is
refused as well. -/
def listing (store : DatabaseStore) (found : Except EngineFault (Relation × Search)) :
    Reply DatabaseStore (List Task) :=
  match found with
  | .error cause => { value := [], state := store, log := [Connection.refusal cause] }
  | .ok (tasks, search) =>
      { value := search.rows.map (tasks.taskOf store.contents.encoding)
        state := search.fault.elim store store.failed
        log := search.fault.toList.map Connection.interruption }

/-- The first task that is found. -/
def picking (store : DatabaseStore) (found : Except EngineFault (Relation × Search)) :
    Reply DatabaseStore (Option Task) :=
  match found with
  | .error _ => { value := none, state := store }
  | .ok (tasks, search) =>
      { value := search.first.rows.head?.map (tasks.taskOf store.contents.encoding)
        state := search.first.fault.elim store store.failed }

/-- A result that is not the empty text. -/
def hasResult (tasks : Relation) (row : Row) : Bool :=
  match tasks.place? "result" with
  | none => false
  | some place =>
      let collation := ((tasks.columns[place]?).map Column.collation).getD .binary
      let result := tasks.cell row place
      !result.isNull && !result.equals collation (.text [])

def write (column : Task.Column) (id : UInt64) (value : Text) (store : DatabaseStore) :
    Except StoreError Unit × DatabaseStore :=
  let name := column.title
  let complaint? (tasks : Relation) : Option EngineFault :=
    (tasks.changeComplaint? (utf8 name)).or (tasks.columnFault? "id")
  match store.writable complaint? (.change [utf8 name] Event.noRow Event.noRow) with
  | .error cause => (.error (.engine cause), store)
  | .ok tasks =>
      let found := tasks.search "id" (.integer id.toInt64)
      let told := [(utf8 name, store.keptText value)]
      let deed : Deed Unit := do
        found.rows.forM (fun row =>
          Deed.changeRow Deed.react none tasks [utf8 name] (fun _ => pure told) row.number)
        found.fault.forM Deed.fault
      match store.execute tasks deed .violation with
      | (.ok written, store) => (if written = 0 then .error (.missing id) else .ok (), store)
      | (.error cause, store) => (.error cause, store)

/-- Does something to the connection of a store. -/
def through {ε α : Type} (store : DatabaseStore)
    (step : Connection Database → Except ε (α × Connection Database)) :
    Except ε (α × DatabaseStore) :=
  (step store.connection).map (fun (answer, connection) => (answer, store.reconnected connection))

/-- Opens a transaction, unless one that cannot write any more is open. -/
def begin (store : DatabaseStore) : Except Fault (Connection.Handle × DatabaseStore) :=
  if store.harmed && !store.connection.readOnly then .error (.engine .damaged)
  else store.through Connection.begin

/-- Commits what the open transaction has done. If it has come across damage that is dropped
instead. -/
def commit (handle : Connection.Handle) (store : DatabaseStore) :
    Reply (Connection.Handle × DatabaseStore) (Except Fault Unit) :=
  if store.harmed && handle.stage == .working then
    { value := .error (.engine .damaged), state := (handle, store.abandoned) }
  else .ofOutcome (handle, store) (store.through (Connection.commit handle))

instance : TaskStore DatabaseStore Connection.Handle where
  begin := begin
  commit := commit
  rollback handle store := store.through (Connection.rollback handle)
  release handle store :=
    let (connection, log) := Connection.release handle store.connection
    (store.reconnected connection, log)
  isCommitted handle _ := handle.stage = .committed
  insert fresh task handle store :=
    let (insertion, store) := store.insert fresh task
    (insertion, handle, store)
  find? id _ store := store.picking (store.select "id" (.integer id.toInt64) none)
  ofProject project _ store :=
    store.listing (store.select "project_id" (store.keptText project) none)
  doneInGroup group _ store :=
    store.listing (store.select "group_id" (store.keptText group) (some ("result", hasResult)))
  write column id value handle store :=
    let (status, store) := store.write column id value
    (status, handle, store)

/-! Statements that reach the connection past the handles. -/

/-- What a statement leaves that may have come across damage. -/
def tried (store : DatabaseStore) (outcome : Except EngineFault DatabaseStore) :
    Reply DatabaseStore (Except EngineFault Unit) :=
  match outcome with
  | .ok store => { value := .ok (), state := store }
  | .error cause => { value := .error cause, state := store.failed cause }

/-- Adds what is missing. -/
def createTable (store : DatabaseStore) : Reply DatabaseStore (Except EngineFault Unit) :=
  let permit : Except EngineFault Unit :=
    match store.refusal? with
    | some cause => .error cause
    | none => .ok ()
  store.tried ((store.contents.prepare permit).map store.withContents)

/-- Drops the table of tasks. -/
def dropTable (store : DatabaseStore) : Reply DatabaseStore (Except EngineFault Unit) :=
  store.tried (
    match store.contents.tasks, store.refusal? with
    | none, _ => .error .noTable
    | some _, some cause => .error cause
    | some tasks, none =>
        if store.contents.canDrop tasks then .ok (store.withContents (store.contents.without tasks))
        else .error .damaged)

end DatabaseStore
end CodeAudit
