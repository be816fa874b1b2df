import CodeAudit.Store.Binding
import CodeAudit.Store.Connection

/-!
The store that keeps tasks as rows of one table, reached over one connection. The table engine keeps
texts up to their first NUL and ids and times as signed 64-bit numbers, orders rows by signed id,
and numbers new rows past every id it has ever held.
-/
namespace CodeAudit

/-- The table: rows in increasing order of signed ids, and the largest id ever inserted, or zero. -/
structure TaskTable where
  rows : List Task := []
  sequence : Int64 := 0
deriving DecidableEq, Repr

/-- A connection to the table, which is missing after it has been dropped. -/
abbrev TableStore := Connection (Option TaskTable)

/-- What is read back of a task that was inserted. -/
def Task.asRow (t : Task) : Task := ofCells .bytes (t.boundWithId .bytes)

namespace TaskTable

def find? (table : TaskTable) (id : UInt64) : Option Task := table.rows.find? (fun t => t.id = id)

/-- Puts a row in its place among rows with other ids. -/
def place (row : Task) : List Task → List Task
  | [] => [row]
  | t :: rest =>
      if row.id.toInt64 < t.id.toInt64 then row :: t :: rest else t :: place row rest

/-- One more than the last row's id and than every id ever inserted; none is left once the largest
signed number has been used. -/
def nextId? (table : TaskTable) : Option Int64 :=
  let last := (table.rows.getLast?.map (fun t => t.id.toInt64)).getD 0
  if last = Int64.maxValue ∨ table.sequence = Int64.maxValue then none
  else some (max (if table.rows.isEmpty then 1 else last + 1) (table.sequence + 1))

/-- Adds a row under an id of its own. Of two conflicts the one of ids is reported. -/
def insertRow (table : TaskTable) (row : Task) : Except StoreError TaskTable :=
  if (table.find? row.id).isSome then .error (.repeated "id")
  else if table.rows.any (fun t => t.uuid = row.uuid) then .error (.repeated "uuid")
  else
    .ok { rows := place row table.rows, sequence := max table.sequence row.id.toInt64 }

def ofProject (table : TaskTable) (project : Text) : List Task :=
  table.rows.filter (fun t => t.projectId = project.beforeNul)

def doneInGroup (table : TaskTable) (group : Text) : List Task :=
  table.rows.filter (fun t => t.groupId = some group.beforeNul ∧ t.isDone)

def write (table : TaskTable) (column : Task.Column) (id : UInt64) (value : Text) :
    Except StoreError TaskTable :=
  match table.find? id with
  | none => .error (.missing id)
  | some _ =>
      .ok { table with
        rows := table.rows.map (fun t => if t.id = id then t.write column value.beforeNul else t) }

end TaskTable

namespace TableStore

/-- A statement that writes to the table: it needs the table, and a connection that may write. -/
def writing (store : TableStore) (statement : TaskTable → Except StoreError TaskTable) :
    Except StoreError Unit × TableStore :=
  match store.contents with
  | none => (.error (.engine .noTable), store)
  | some table =>
      if store.refusesWrites then (.error (.engine .readOnly), store)
      else
        match statement table with
        | .ok changed => (.ok (), { store with contents := some changed })
        | .error cause => (.error cause, store)

/-- Inserts under the task's own id, or under the next one if it has none. Running out of ids ends
the open transaction. -/
def insert (fresh : Fresh) (task : Task) (store : TableStore) : Insertion × TableStore :=
  let task := task.fill fresh
  if task.id ≠ 0 then
    let (status, store) := store.writing (fun table => table.insertRow task.asRow)
    ({ status, task }, store)
  else
    match store.contents.map TaskTable.nextId? with
    | some (some id) =>
        let numbered := { task with id := id.toUInt64 }
        let (status, store) := store.writing (fun table => table.insertRow numbered.asRow)
        ({ status, task := if status.isOk then numbered else task }, store)
    | some none =>
        if store.refusesWrites then ({ status := .error (.engine .readOnly), task }, store)
        else ({ status := .error (.engine .full), task }, store.abandon)
    | none => ({ status := .error (.engine .noTable), task }, store)

/-- A query that lists rows answers nothing when the table is missing, and logs it. -/
def listing (store : TableStore) (query : TaskTable → List Task) : Reply TableStore (List Task) :=
  match store.contents with
  | some table => { value := query table, state := store }
  | none => { value := [], state := store, log := [Connection.refusal .noTable] }

instance : TaskStore TableStore Connection.Handle where
  begin := Connection.begin
  commit handle store := .ofOutcome (handle, store) (Connection.commit handle store)
  rollback := Connection.rollback
  release := Connection.release
  isCommitted handle _ := handle.stage = .committed
  insert fresh task handle store :=
    let (insertion, store) := store.insert fresh task
    (insertion, handle, store)
  find? id _ store := { value := store.contents.bind (fun table => table.find? id), state := store }
  ofProject project _ store := store.listing (fun table => table.ofProject project)
  doneInGroup group _ store := store.listing (fun table => table.doneInGroup group)
  write column id value handle store :=
    let (status, store) := store.writing (fun table => table.write column id value)
    (status, handle, store)

/-! Statements that reach the connection past the handles. -/

/-- Creates the table unless it is there. -/
def createTable (store : TableStore) : Except EngineFault TableStore :=
  match store.contents with
  | some _ => .ok store
  | none => if store.refusesWrites then .error .readOnly else .ok { store with contents := some {} }

/-- Drops the table; numbering starts afresh when it is created again. -/
def dropTable (store : TableStore) : Except EngineFault TableStore :=
  match store.contents with
  | none => .error .noTable
  | some _ => if store.refusesWrites then .error .readOnly else .ok { store with contents := none }

end TableStore
end CodeAudit
