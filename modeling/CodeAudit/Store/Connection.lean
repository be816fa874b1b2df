import CodeAudit.Folder
import CodeAudit.Store

/-!
One connection to what the table engine keeps, `α`. At most one transaction is open on it. A handle
of a store over a connection stands for a transaction, but statements reach the contents whether or
not it is still open.
-/
namespace CodeAudit

/-- The file behind a connection, and whether it keeps a write-ahead log. -/
structure TableSource where
  location : Location
  logged : Bool
deriving DecidableEq, Repr

/-- A connection. Statements see `contents`; `restore` holds what a rollback of the open transaction
goes back to. `readOnly` is a switch that refuses transactions and writes, and `frozen` a file that
refuses writes. -/
structure Connection (α : Type) where
  contents : α
  restore : Option α := none
  readOnly : Bool := false
  frozen : Bool := false
  source : Option TableSource := none
deriving DecidableEq, Repr

namespace Connection

inductive Stage where
  | working | committed | rolledBack
deriving DecidableEq, Repr

structure Handle where
  stage : Stage := .working
deriving DecidableEq, Repr

variable {α : Type}

/-- No statement on the connection may write. -/
def refusesWrites (connection : Connection α) : Bool := connection.readOnly || connection.frozen

/-- Opens a transaction on the connection. Only one that means to write minds a read-only
connection, and not over a frozen file, where it gets no further than reading. -/
def open? (connection : Connection α) (writing : Bool) : Except EngineFault (Connection α) :=
  if writing ∧ connection.readOnly ∧ ¬connection.frozen then .error .readOnly
  else if connection.restore.isSome then .error .nestedBegin
  else .ok { connection with restore := some connection.contents }

def commit? (connection : Connection α) : Except EngineFault (Connection α) :=
  match connection.restore with
  | none => .error .nothingToCommit
  | some _ => .ok { connection with restore := none }

def rollback? (connection : Connection α) : Except EngineFault (Connection α) :=
  match connection.restore with
  | none => .error .nothingToRollBack
  | some contents => .ok { connection with contents, restore := none }

/-- Drops what the open transaction has done, if one is open. -/
def abandon (connection : Connection α) : Connection α :=
  match connection.restore with
  | none => connection
  | some contents => { connection with contents, restore := none }

/-! What handles do to the connection. -/

def begin (connection : Connection α) : Except Fault (Handle × Connection α) := do
  let connection ← (connection.open? true).mapError Fault.engine
  return ({}, connection)

def commit (handle : Handle) (connection : Connection α) : Except Fault (Handle × Connection α) :=
  match handle.stage with
  | .working => do
      let connection ← connection.commit?.mapError Fault.engine
      return ({ stage := .committed }, connection)
  | _ => .error (.transactionFinished "sqlite")

def rollback (handle : Handle) (connection : Connection α) : Except Fault (Handle × Connection α) :=
  match handle.stage with
  | .working => do
      let connection ← connection.rollback?.mapError Fault.engine
      return ({ stage := .rolledBack }, connection)
  | _ => .ok (handle, connection)

/-- Gives a handle back: an unfinished one is rolled back, and a failure to do so is only logged. -/
def release (handle : Handle) (connection : Connection α) : Connection α × List Log.Line :=
  match handle.stage with
  | .working =>
      match connection.rollback? with
      | .ok connection => (connection, [])
      | .error cause =>
          (connection, [Log.error "sqlite rollback failed" [.text "error" cause.message]])
  | _ => (connection, [])

/-- The line that tells that a query was refused. -/
def refusal (cause : EngineFault) : Log.Line :=
  Log.error "sqlite prepare failed" [.text "error" cause.message]

/-- The line that tells that the rows of a query could not be read to their end. -/
def interruption (cause : EngineFault) : Log.Line :=
  Log.error "sqlite task scan failed" [.text "error" cause.message]

end Connection
end CodeAudit
