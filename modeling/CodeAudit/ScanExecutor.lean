import CodeAudit.Collaborator
import CodeAudit.Prompt

/-! The executor that asks a reasoning client once for each task. -/
namespace CodeAudit
namespace ScanExecutor

/-- An empty answer is no answer. -/
def checkResponse (task : UInt64) : Except Fault Text → Except Fault Text
  | .ok [] => .error (.emptyResponse task)
  | answer => answer

def execute {ε : Type} (client : Client ε) : Executor ε := fun task briefing state =>
  let prompt := Prompt.scan task briefing.groupSummary
  let log :=
    [Log.debug "Scanning task"
      [.word "task_id" task.id, .bool "business_flow_scan" task.flowScan,
       .bool "with_group_summary" briefing.groupSummary.isSome, .nat "prompt_bytes" prompt.length]]
  if briefing.cancelled then
    { value := .immediate (.error (.cancelled task.id)), state, log }
  else
    let (call, state) := client prompt state
    { value := { call with answer := checkResponse task.id call.answer }, state, log }

/-- Needs a client. -/
def assemble {ε : Type} (client : Option (Client ε)) : Except Fault (Executor ε) := do
  return execute (← Component.scanExecutor.require client)

end ScanExecutor
end CodeAudit
