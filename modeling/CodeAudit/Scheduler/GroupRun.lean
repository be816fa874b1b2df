import CodeAudit.Collaborator
import CodeAudit.Scheduler.RunReport
import CodeAudit.Scheduler.TaskGroup
import CodeAudit.Store

/-!
One group at work. A task is decided on, told of its finished siblings, handed to the executor,
awaited and saved, and only then the next task of the group is looked at. Each of these is one step,
so that the steps of several groups can be interleaved at will.
-/
namespace CodeAudit

/-- The outside parties of a run, and how long they may take. A limit of zero or less is no
limit. -/
structure Crew (ε : Type) where
  executor : Executor ε
  summarizer : Option (Summarizer ε) := none
  filter : Option (Filter ε) := none
  limit : Int := 0

/-- Whether the filter lets a task pass; without a filter every task does. -/
def Crew.judge {ε : Type} (crew : Crew ε) : Filter ε := fun task env =>
  match crew.filter with
  | none => (.ok true, env)
  | some accepts => accepts task env

namespace GroupRun

/-- What the run of a group does next. -/
inductive Stage where
  /-- Look at the next task. -/
  | deciding
  /-- Gather what the task's finished siblings reported. -/
  | briefing (task : Task)
  | launching (task : Task) (groupSummary : Option Text)
  /-- The executor has been called and has not come back. -/
  | awaiting (task : Task) (call : Call)
  | saving (task : Task) (result : Text)

end GroupRun

structure GroupRun where
  groupId : Option Text
  waiting : List Task
  stage : GroupRun.Stage := .deciding
  report : RunReport := { groups := 1 }

namespace GroupRun

def start (group : TaskGroup) : GroupRun := { groupId := group.groupId, waiting := group.tasks }

/-- How a step of a group leaves it. -/
inductive Progress where
  | running (run : GroupRun)
  | finished (report : RunReport)
  /-- The filter failed; the group is given up. -/
  | aborted (fault : Fault)

/-- The number of steps that a group can still take at most. -/
def remaining (run : GroupRun) : Nat :=
  5 * run.waiting.length +
    match run.stage with
    | .deciding => 1
    | .saving _ _ => 2
    | .awaiting _ _ => 3
    | .launching _ _ => 4
    | .briefing _ => 5

/-- The call outlasts the limit. -/
def isLate (limit : Int) : CallSpan → Bool
  | .after milliseconds => 0 < limit && limit ≤ milliseconds
  | .untilCancelled => 0 < limit

def skipDone (run : GroupRun) (task : Task) (rest : List Task) : GroupRun :=
  { run with
    waiting := rest
    report :=
      { run.report with skippedDone := run.report.skippedDone + 1 }.record task.id .succeeded }

def skipFiltered (run : GroupRun) (task : Task) (rest : List Task) : GroupRun :=
  { run with
    waiting := rest
    report :=
      { run.report with skippedFiltered := run.report.skippedFiltered + 1 }.record task.id
        .pending }

def accept (run : GroupRun) (task : Task) (rest : List Task) : GroupRun :=
  { run with
    waiting := rest
    stage := .briefing task
    report := { run.report with executed := run.report.executed + 1 } }

/-- Ends the current task with a fault. A fault of the timeout kind, whoever raised it, puts the
task back. -/
def settle (run : GroupRun) (task : Task) (fault : Fault) : GroupRun × List Log.Line :=
  if fault.kind = .timeout then
    ({ run with
       stage := .deciding
       report :=
         { run.report with timedOut := run.report.timedOut + 1 }.record task.id .requeued },
     [Log.warn "Task timed out" [.word "task_id" task.id, .text "error" fault.message]])
  else
    ({ run with
       stage := .deciding
       report := { run.report with failed := run.report.failed + 1 }.record task.id .failed },
     [Log.error "Task failed"
       [.word "task_id" task.id, .text "name" task.name, .text "error" fault.message]])

def succeed (run : GroupRun) (task : Task) (result : Text) : GroupRun × List Log.Line :=
  ({ run with
     stage := .deciding
     report :=
       { run.report with succeeded := run.report.succeeded + 1 }.record task.id .succeeded },
   [Log.info "Task completed"
     [.word "task_id" task.id, .text "name" task.name, .nat "result_bytes" result.length]])

section Steps
variable {σ τ ε : Type} [TaskStore σ τ]

/-- A step's reply from the next state of the run and the lines logged on the way. -/
def reply (run : GroupRun × List Log.Line) (store : σ) (env : ε) (log : List Log.Line := []) :
    Reply (σ × ε) Progress :=
  { value := .running run.1, state := (store, env), log := log ++ run.2 }

/-- Finishes the group, or decides about its next task: done, turned down by the filter, or to be
executed. -/
def consider (crew : Crew ε) (run : GroupRun) (store : σ) (env : ε) : Reply (σ × ε) Progress :=
  match run.waiting with
  | [] => { value := .finished run.report, state := (store, env) }
  | task :: rest =>
      if task.isDone then
        reply (run.skipDone task rest, [Log.debug "Task skipped, already has a result"
          [.word "task_id" task.id]]) store env
      else
        let (verdict, env) := crew.judge task env
        match verdict with
        | .error fault => { value := .aborted fault, state := (store, env) }
        | .ok false =>
            reply (run.skipFiltered task rest, [Log.debug "Task skipped by filter"
              [.word "task_id" task.id]]) store env
        | .ok true => reply (run.accept task rest, []) store env

/-- Reads the finished siblings of a grouped task and has them summarized, if there are any. -/
def brief (crew : Crew ε) (run : GroupRun) (task : Task) (store : σ) (env : ε) :
    Reply (σ × ε) Progress :=
  match crew.summarizer, task.groupId with
  | some summarize, some group =>
      let read := TaskStore.finishedSiblings group store
      match read.value with
      | .error fault => reply (run.settle task fault) read.state env read.log
      | .ok done =>
          match done.filter (fun t => t.id ≠ task.id) with
          | [] => reply ({ run with stage := .launching task none }, []) read.state env read.log
          | siblings =>
              let summary := summarize siblings env
              let log := read.log ++
                [Log.debug "Summarizing group results"
                  [.word "task_id" task.id, .nat "completed_siblings" siblings.length]] ++
                    summary.log
              match summary.value with
              | .error fault => reply (run.settle task fault) read.state summary.state log
              | .ok text =>
                  reply ({ run with stage := .launching task text }, []) read.state
                    summary.state log
  | _, _ => reply ({ run with stage := .launching task none }, []) store env

/-- Calls the executor. -/
def launch (crew : Crew ε) (run : GroupRun) (task : Task) (groupSummary : Option Text) (store : σ)
    (env : ε) : Reply (σ × ε) Progress :=
  let started := crew.executor task { groupSummary } env
  reply ({ run with stage := .awaiting task started.value }, started.log) store started.state

/-- Waits for the executor. The answer of a call that outlasts the limit is dropped, but the call
itself is waited for to its end. -/
def await (crew : Crew ε) (run : GroupRun) (task : Task) (call : Call) (store : σ) (env : ε) :
    Reply (σ × ε) Progress :=
  if isLate crew.limit call.span then
    reply (run.settle task (.deadlinePassed task.id crew.limit)) store env
      [Log.debug "Timed-out call finished" [.word "task_id" task.id]]
  else
    match call.answer with
    | .error fault => reply (run.settle task fault) store env
    | .ok [] => reply (run.settle task .emptyResult) store env
    | .ok result => reply ({ run with stage := .saving task result }, []) store env

/-- Commits the result. -/
def save (run : GroupRun) (task : Task) (result : Text) (store : σ) (env : ε) :
    Reply (σ × ε) Progress :=
  let saved := TaskStore.saveResult task.id result store
  match saved.value with
  | .error fault => reply (run.settle task fault) saved.state env saved.log
  | .ok () => reply (run.succeed task result) saved.state env saved.log

def step (crew : Crew ε) (run : GroupRun) (store : σ) (env : ε) : Reply (σ × ε) Progress :=
  match run.stage with
  | .deciding => run.consider crew store env
  | .briefing task => run.brief crew task store env
  | .launching task groupSummary => run.launch crew task groupSummary store env
  | .awaiting task call => run.await crew task call store env
  | .saving task result => run.save task result store env

/-- Takes at most so many steps. -/
def advance (crew : Crew ε) : Nat → GroupRun → σ → ε → Reply (σ × ε) Progress
  | 0, run, store, env => { value := .running run, state := (store, env) }
  | n + 1, run, store, env =>
      let now := run.step crew store env
      match now.value with
      | .running next =>
          let later := advance crew n next now.state.1 now.state.2
          { later with log := now.log ++ later.log }
      | _ => now

/-- Runs a group on its own to its end. -/
def complete (crew : Crew ε) (group : TaskGroup) (store : σ) (env : ε) :
    Reply (σ × ε) (Except Fault RunReport) :=
  let run := start group
  let ended := advance crew run.remaining run store env
  { ended with
    value :=
      match ended.value with
      | .finished report => .ok report
      | .aborted fault => .error fault
      | .running run => .ok run.report }

end Steps
end GroupRun
end CodeAudit
