import CodeAudit.Store

/-!
The store that keeps tasks in memory. A handle works on a copy of the committed contents, which
`commit` puts back; rows are kept in increasing order of their unsigned ids.
-/
namespace CodeAudit

structure MemoryStore.Contents where
  tasks : List Task := []
  nextId : UInt64 := 1
deriving DecidableEq, Repr

structure MemoryStore where
  committed : MemoryStore.Contents := {}
deriving DecidableEq, Repr

namespace MemoryStore

inductive Stage where
  | working | committed | rolledBack
deriving DecidableEq, Repr

structure Handle where
  contents : Contents
  stage : Stage := .working
deriving DecidableEq, Repr

namespace Contents

def find? (c : Contents) (id : UInt64) : Option Task := c.tasks.find? (fun t => t.id = id)

/-- Puts a task in its place; a task with the same id is replaced. -/
def place (task : Task) : List Task → List Task
  | [] => [task]
  | t :: rest =>
      if task.id < t.id then task :: t :: rest
      else if task.id = t.id then task :: rest
      else t :: place task rest

/-- Gives the next id to a task without one and refuses an id that is taken. The next id is then
above the inserted one, in 64-bit arithmetic. -/
def insert (c : Contents) (fresh : Fresh) (task : Task) : Insertion × Contents :=
  if task.id ≠ 0 ∧ (c.find? task.id).isSome then
    ({ status := .error (.taken task.id), task }, c)
  else
    let stored := { task with id := if task.id = 0 then c.nextId else task.id }.fill fresh
    ({ status := .ok (), task := stored },
     { tasks := place stored c.tasks, nextId := max c.nextId (stored.id + 1) })

def ofProject (c : Contents) (project : Text) : List Task :=
  c.tasks.filter (fun t => t.projectId = project)

def doneInGroup (c : Contents) (group : Text) : List Task :=
  c.tasks.filter (fun t => t.groupId = some group ∧ t.isDone)

def write (c : Contents) (column : Task.Column) (id : UInt64) (value : Text) :
    Except StoreError Unit × Contents :=
  match c.find? id with
  | none => (.error (.missing id), c)
  | some _ =>
      (.ok (),
        { c with tasks := c.tasks.map (fun t => if t.id = id then t.write column value else t) })

end Contents

def begin (store : MemoryStore) : Handle := { contents := store.committed }

/-- Moves the working contents into the store; the handle is left without tasks. -/
def commit (handle : Handle) (store : MemoryStore) :
    Reply (Handle × MemoryStore) (Except Fault Unit) :=
  match handle.stage with
  | .working =>
      { value := .ok ()
        state := ({ contents := { handle.contents with tasks := [] }, stage := .committed },
          { committed := handle.contents }) }
  | _ => { value := .error (.transactionFinished "memory"), state := (handle, store) }

def rollback (handle : Handle) : Handle :=
  match handle.stage with
  | .working => { handle with stage := .rolledBack }
  | _ => handle

instance : TaskStore MemoryStore Handle where
  begin store := .ok (begin store, store)
  commit := commit
  rollback handle store := .ok (rollback handle, store)
  release _ store := (store, [])
  isCommitted handle _ := handle.stage = .committed
  insert fresh task handle store :=
    let (insertion, contents) := handle.contents.insert fresh task
    (insertion, { handle with contents }, store)
  find? id handle state := { value := handle.contents.find? id, state }
  ofProject project handle state := { value := handle.contents.ofProject project, state }
  doneInGroup group handle state := { value := handle.contents.doneInGroup group, state }
  write column id value handle store :=
    let (status, contents) := handle.contents.write column id value
    (status, { handle with contents }, store)

end MemoryStore
end CodeAudit
