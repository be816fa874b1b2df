import CodeAudit.Scheduler.WorkerPool

/-!
Runs over the tasks of a store. Groups run side by side on a bounded number of workers and the tasks
of one group one at a time; a run ends when every group has.
-/
namespace CodeAudit

structure Scheduler.Options where
  workers : UInt64 := 5
  /-- In milliseconds; zero or less is no limit. -/
  limit : Int := 0
  /-- Whether a grouped task is told what its finished siblings reported. -/
  summarize : Bool := true
deriving DecidableEq, Repr

structure Scheduler (ε : Type) where
  workers : UInt64
  crew : Crew ε

namespace Scheduler
variable {σ τ ε : Type} [TaskStore σ τ]

/-- Needs at least one worker, a store and an executor. -/
def assemble (store : Option σ) (executor : Option (Executor ε))
    (summarizer : Option (Summarizer ε)) (options : Options) : Except Fault (σ × Scheduler ε) := do
  if options.workers < 1 then throw .noWorkers
  let store ← Component.groupRunner.require store
  let executor ← Component.groupRunner.require executor
  return (store,
    { workers := options.workers
      crew :=
        { executor
          summarizer := if options.summarize then summarizer else none
          limit := options.limit } })

def finishedLine (report : RunReport) : Log.Line :=
  Log.info "Scan run finished"
    [.word "groups" report.groups, .word "executed" report.executed,
     .word "succeeded" report.succeeded, .word "failed" report.failed,
     .word "timed_out" report.timedOut, .word "skipped_terminal" report.skippedDone,
     .word "skipped_filtered" report.skippedFiltered]

/-- A closed queue that holds the groups of a list of tasks. -/
def fullQueue (groups : List TaskGroup) : GroupQueue := { waiting := groups, closed := true }

/-- The pool at the beginning of a run: no more workers than groups. -/
def pool (scheduler : Scheduler ε) (groups : List TaskGroup) (store : σ) (env : ε) :
    WorkerPool σ ε :=
  WorkerPool.start store env (fullQueue groups) (min scheduler.workers.toNat groups.length)

/-- Runs a list of stored tasks. A list with a task that has no id is refused, and an empty one is
done at once. -/
def runList (scheduler : Scheduler ε) (filter : Option (Filter ε)) (tasks : List Task) (store : σ)
    (env : ε) : Reply (σ × ε) (Except Fault RunReport) :=
  match tasks.find? (fun t => t.id = 0) with
  | some task => { value := .error (.unstoredTask task.name), state := (store, env) }
  | none =>
      match TaskGroup.partition tasks with
      | [] => { value := .ok {}, state := (store, env) }
      | groups =>
          let before := scheduler.pool groups store env
          let after := before.run { scheduler.crew with filter } before.oneAfterAnother
          { value := .ok after.report
            state := (after.store, after.env)
            log := after.log ++ [finishedLine after.report] }

/-- Runs the tasks of a project in the order of their ids. -/
def runProject (scheduler : Scheduler ε) (filter : Option (Filter ε)) (project : Text) (store : σ)
    (env : ε) : Reply (σ × ε) (Except Fault RunReport) :=
  let loaded := TaskStore.projectTasks project store
  match loaded.value with
  | .error fault => { value := .error fault, state := (loaded.state, env), log := loaded.log }
  | .ok tasks =>
      let ran := scheduler.runList filter tasks loaded.state env
      { ran with
        log := loaded.log ++
          Log.info "Loaded project tasks" [.text "project_id" project, .nat "tasks" tasks.length] ::
            ran.log }

/-- The life of a single worker before a queue: it drains the queue if it was started, whether it is
joined or simply dropped, and its report is to be had only after joining. -/
def drain (crew : Crew ε) (started joined : Bool) (groups : List TaskGroup) (store : σ) (env : ε) :
    Reply (σ × ε) RunReport :=
  let before := WorkerPool.start store env (fullQueue groups) 1
  let after := if started then before.run crew before.oneAfterAnother else before
  { value := if joined then after.report else {}
    state := (after.store, after.env)
    log := after.log }

end Scheduler
end CodeAudit
