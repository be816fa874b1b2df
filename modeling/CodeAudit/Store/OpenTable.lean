import CodeAudit.Store.Database

/-! The store behind an address: a table of tasks, alone or in a database with more in it. -/
namespace CodeAudit

inductive OpenTable where
  | tasks (store : TableStore)
  | database (store : DatabaseStore)
deriving DecidableEq

namespace OpenTable

/-- Does the same to a store of either kind. -/
def change {α : Type} (store : OpenTable) (onTasks : TableStore → Reply TableStore α)
    (onDatabase : DatabaseStore → Reply DatabaseStore α) : Reply OpenTable α :=
  match store with
  | tasks store => (onTasks store).mapState tasks
  | database store => (onDatabase store).mapState database

/-- Does the same to the connection of a store of either kind. -/
def changeConnection {ε : Type} (store : OpenTable)
    (step : {α : Type} → Connection α → Except ε (Connection α)) :
    Reply OpenTable (Except ε Unit) :=
  store.change (fun store => .ofOutcome store (step store))
    (fun store => .ofOutcome store ((step store.connection).map store.reconnected))

instance : TaskStore OpenTable Connection.Handle where
  begin
    | tasks store => (TaskStore.begin store).map (fun (handle, store) => (handle, tasks store))
    | database store => (TaskStore.begin store).map
        (fun (handle, store) => (handle, database store))
  commit handle
    | tasks store => (TaskStore.commit handle store).mapState (Prod.map id tasks)
    | database store => (TaskStore.commit handle store).mapState (Prod.map id database)
  rollback handle
    | tasks store => (TaskStore.rollback handle store).map
        (fun (handle, store) => (handle, tasks store))
    | database store => (TaskStore.rollback handle store).map
        (fun (handle, store) => (handle, database store))
  release handle
    | tasks store => (TaskStore.release handle store).map tasks id
    | database store => (TaskStore.release handle store).map database id
  isCommitted handle
    | tasks store => TaskStore.isCommitted handle store
    | database store => TaskStore.isCommitted handle store
  insert fresh task handle
    | tasks store => (TaskStore.insert fresh task handle store).map id (Prod.map id tasks)
    | database store => (TaskStore.insert fresh task handle store).map id (Prod.map id database)
  find? id handle
    | tasks store => (TaskStore.find? id handle store).mapState tasks
    | database store => (TaskStore.find? id handle store).mapState database
  ofProject project handle
    | tasks store => (TaskStore.ofProject project handle store).mapState tasks
    | database store => (TaskStore.ofProject project handle store).mapState database
  doneInGroup group handle
    | tasks store => (TaskStore.doneInGroup group handle store).mapState tasks
    | database store => (TaskStore.doneInGroup group handle store).mapState database
  write column id value handle
    | tasks store => (TaskStore.write column id value handle store).map (fun s => s)
        (Prod.map (fun h => h) tasks)
    | database store => (TaskStore.write column id value handle store).map (fun s => s)
        (Prod.map (fun h => h) database)

/-! Statements that reach the connection past the handles. -/

/-- Opens a transaction. -/
def start (store : OpenTable) : Reply OpenTable (Except EngineFault Unit) :=
  store.changeConnection (fun connection => connection.open? false)

/-- Drops what the open transaction has done. -/
def undo (store : OpenTable) : Reply OpenTable (Except EngineFault Unit) :=
  store.changeConnection Connection.rollback?

/-- Refuses or allows writes from now on. -/
def setReadOnly (readOnly : Bool) (store : OpenTable) : Reply OpenTable (Except EngineFault Unit) :=
  store.changeConnection (fun connection => .ok { connection with readOnly })

/-- Adds what is missing. -/
def createTable (store : OpenTable) : Reply OpenTable (Except EngineFault Unit) :=
  store.change (fun store => .ofOutcome store store.createTable) DatabaseStore.createTable

def dropTable (store : OpenTable) : Reply OpenTable (Except EngineFault Unit) :=
  store.change (fun store => .ofOutcome store store.dropTable) DatabaseStore.dropTable

end OpenTable
end CodeAudit
