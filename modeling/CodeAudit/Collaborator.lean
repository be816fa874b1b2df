import CodeAudit.Fault
import CodeAudit.Log
import CodeAudit.Task

/-!
The outside parties of a scan: a reasoning client, an executor of tasks, a summarizer of finished
siblings and a filter. Each is a function of its arguments and of a state of its own, which it hands
back changed.
-/
namespace CodeAudit

/-- What a step answers, the state it leaves and the lines it logs. -/
structure Reply (σ α : Type) where
  value : α
  state : σ
  log : List Log.Line := []

def Reply.mapState {σ τ α : Type} (reply : Reply σ α) (f : σ → τ) : Reply τ α :=
  { value := reply.value, state := f reply.state, log := reply.log }

/-- When a call comes back. -/
inductive CallSpan where
  | after (milliseconds : Nat)
  /-- Only once the caller has given up on it. -/
  | untilCancelled
deriving DecidableEq, Repr

/-- A call that always comes back at some time, with an answer or a fault. -/
structure Call where
  span : CallSpan := .after 0
  answer : Except Fault Text

/-- A call that comes back at once. -/
def Call.immediate (answer : Except Fault Text) : Call := { answer }

/-- A reasoning service, asked with a prompt. -/
abbrev Client (ε : Type) := Text → ε → Call × ε

/-- What an executor is told besides the task. -/
structure Briefing where
  /-- Issues already reported by earlier tasks of the same group. -/
  groupSummary : Option Text := none
  /-- The caller has given up before the call begins. -/
  cancelled : Bool := false
deriving DecidableEq, Repr

/-- Performs the analysis for one task. -/
abbrev Executor (ε : Type) := Task → Briefing → ε → Reply ε Call

/-- Condenses finished siblings; nothing means there is nothing worth passing on. -/
abbrev Summarizer (ε : Type) := List Task → ε → Reply ε (Except Fault (Option Text))

/-- Whether a task is to be executed now. -/
abbrev Filter (ε : Type) := Task → ε → Except Fault Bool × ε

end CodeAudit
