import CodeAudit.Collaborator

/-!
Task stores. Every read and write goes through a handle that `begin` gives out; what is written
shows to others after `commit`. `σ` is the store and `τ` its handles.
-/
namespace CodeAudit

/-- What a store draws for a task that brings no uuid or no creation time. -/
structure Fresh where
  uuid : Text
  now : UInt64
deriving DecidableEq, Repr

/-- The task with its blanks filled in. -/
def Task.fill (t : Task) (fresh : Fresh) : Task :=
  { t with
    uuid := if t.uuid.isEmpty then fresh.uuid else t.uuid
    createdAt := if t.createdAt = 0 then fresh.now else t.createdAt }

/-- How an insertion ended, and the task as the caller has it afterwards. -/
structure Insertion where
  status : Except StoreError Unit
  task : Task

/-- The answer to something that either leaves another state or is refused and leaves everything as
it was. -/
def Reply.ofOutcome {σ ε : Type} (state : σ) : Except ε σ → Reply σ (Except ε Unit)
  | .ok state => { value := .ok (), state }
  | .error fault => { value := .error fault, state }

class TaskStore (σ : Type) (τ : outParam Type) where
  begin : σ → Except Fault (τ × σ)
  /-- The handle of a refused commit is left unfinished. -/
  commit : τ → σ → Reply (τ × σ) (Except Fault Unit)
  /-- Does nothing to a handle that is finished. -/
  rollback : τ → σ → Except Fault (τ × σ)
  /-- Gives a handle back; what an unfinished one has written is dropped. -/
  release : τ → σ → σ × List Log.Line
  isCommitted : τ → σ → Bool
  insert : Fresh → Task → τ → σ → Insertion × τ × σ
  find? : UInt64 → τ → σ → Reply σ (Option Task)
  ofProject : Text → τ → σ → Reply σ (List Task)
  /-- The tasks of a group that have a result. -/
  doneInGroup : Text → τ → σ → Reply σ (List Task)
  write : Task.Column → UInt64 → Text → τ → σ → Except StoreError Unit × τ × σ

namespace TaskStore
variable {σ τ : Type} [TaskStore σ τ]

/-- A step with a transaction of its own, committed unless the step itself fails. -/
def alone {α : Type} (step : τ → σ → Reply (τ × σ) (Except Fault α)) (store : σ) :
    Reply σ (Except Fault α) :=
  match begin store with
  | .error fault => { value := .error fault, state := store }
  | .ok (handle, store) =>
      let reply := step handle store
      let (handle, store) := reply.state
      match reply.value with
      | .error fault =>
          let (store, log) := release handle store
          { value := .error fault, state := store, log := reply.log ++ log }
      | .ok value =>
          let committed := commit handle store
          let (handle, store) := committed.state
          let (store, log) := release handle store
          { value := committed.value.map (fun _ => value)
            state := store
            log := reply.log ++ committed.log ++ log }

/-- The tasks of a project in the order of their ids. -/
def projectTasks (project : Text) : σ → Reply σ (Except Fault (List Task)) :=
  alone fun handle store =>
    let reply := ofProject project handle store
    { value := .ok reply.value, state := (handle, reply.state), log := reply.log }

/-- The tasks of a group that have a result, in the order of their ids. -/
def finishedSiblings (group : Text) : σ → Reply σ (Except Fault (List Task)) :=
  alone fun handle store =>
    let reply := doneInGroup group handle store
    { value := .ok reply.value, state := (handle, reply.state), log := reply.log }

/-- Writes the result of a task. -/
def saveResult (task : UInt64) (result : Text) : σ → Reply σ (Except Fault Unit) :=
  alone fun handle store =>
    let (status, handle, store) := write .result task result handle store
    { value := status.mapError (Fault.notSaved task), state := (handle, store) }

end TaskStore
end CodeAudit
