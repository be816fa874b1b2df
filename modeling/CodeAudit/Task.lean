import CodeAudit.Text

/-! Scan tasks, and the state a run gives each of them. -/
namespace CodeAudit

/-- A stored request to scan one function under one rule. Id zero means not stored yet. -/
structure Task where
  id : UInt64 := 0
  uuid : Text := []
  projectId : Text := []
  /-- Qualified name of the function to scan. -/
  name : Text := []
  content : Text := []
  rule : Text := []
  ruleKey : Text := []
  result : Text := []
  contractCode : Text := []
  startLine : Text := []
  endLine : Text := []
  relativePath : Text := []
  absolutePath : Text := []
  recommendation : Text := []
  flowCode : Text := []
  flowScan : Bool := false
  /-- Tasks with the same group id run one after another; the empty id is a group like any other. -/
  groupId : Option Text := none
  scanRecord : Text := []
  shortResult : Text := []
  createdAt : UInt64 := 0
deriving DecidableEq, Repr

namespace Task

/-- A task with a result is never executed again. -/
def isDone (t : Task) : Bool := !t.result.isEmpty

/-- The texts that may be written after a task has been stored. -/
inductive Column where
  | result | shortResult | scanRecord
deriving DecidableEq, Repr

def write (t : Task) (column : Column) (value : Text) : Task :=
  match column with
  | .result => { t with result := value }
  | .shortResult => { t with shortResult := value }
  | .scanRecord => { t with scanRecord := value }

end Task

inductive TaskState where
  | pending | running | succeeded
  /-- The stored task keeps an empty result, so that a later run tries it again. -/
  | failed
  /-- The deadline passed and the answer was dropped. -/
  | requeued
  /-- A code outside the five states. -/
  | other (code : UInt8)
deriving DecidableEq, Repr

namespace TaskState

def ofCode (code : UInt8) : TaskState :=
  [pending, running, succeeded, failed, requeued][code.toNat]?.getD (other code)

def name : TaskState → String
  | pending => "pending"
  | running => "running"
  | succeeded => "succeeded"
  | failed => "failed"
  | requeued => "requeued"
  | other _ => "unknown"

end TaskState
end CodeAudit
