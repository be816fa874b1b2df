import CodeAudit.Scheduler.GroupQueue
import CodeAudit.Scheduler.GroupRun

/-!
Workers that drain a queue of groups side by side. The pool moves by steps of single workers, and a
schedule says which worker moves next; nothing here depends on a particular schedule.
-/
namespace CodeAudit

namespace Worker

inductive Stage where
  /-- About to take a group from the queue. -/
  | idle
  | busy (run : GroupRun)
  /-- Has seen the queue drained. -/
  | finished

end Worker

structure Worker where
  stage : Worker.Stage := .idle
  report : RunReport := {}

def Worker.isFinished (w : Worker) : Bool :=
  match w.stage with
  | .finished => true
  | _ => false

structure WorkerPool (σ ε : Type) where
  store : σ
  env : ε
  queue : GroupQueue
  workers : List Worker
  log : List Log.Line := []

namespace WorkerPool

section Steps
variable {σ τ ε : Type} [TaskStore σ τ]

/-- A pool of idle workers in front of a queue. -/
def start (store : σ) (env : ε) (queue : GroupQueue) (workers : Nat) : WorkerPool σ ε :=
  { store, env, queue, workers := List.replicate workers {} }

def abortError (run : GroupRun) (fault : Fault) : Log.Line :=
  Log.error "Group run aborted"
    [.text "group_id" (run.groupId.getD []), .text "error" fault.message]

/-- One step of a group in the hands of a worker. The report of a group counts once the group has
ended; that of an aborted group is lost. -/
def stepRun (crew : Crew ε) (pool : WorkerPool σ ε) (i : Nat) (worker : Worker) (run : GroupRun) :
    WorkerPool σ ε :=
  let now := run.step crew pool.store pool.env
  let (worker, log) : Worker × List Log.Line :=
    match now.value with
    | .running next => ({ worker with stage := .busy next }, [])
    | .finished report => ({ stage := .idle, report := worker.report.merge report }, [])
    | .aborted fault => ({ worker with stage := .idle }, [abortError run fault])
  { pool with
    store := now.state.1
    env := now.state.2
    workers := pool.workers.set i worker
    log := pool.log ++ now.log ++ log }

/-- One step of the worker at an index. A finished worker, one that has to wait, and no worker at
all do nothing. -/
def step (crew : Crew ε) (pool : WorkerPool σ ε) (i : Nat) : WorkerPool σ ε :=
  match pool.workers[i]? with
  | none => pool
  | some worker =>
      match worker.stage with
      | .finished => pool
      | .busy run => pool.stepRun crew i worker run
      | .idle =>
          match pool.queue.dequeue with
          | .nothingYet => pool
          | .drained =>
              { pool with workers := pool.workers.set i { worker with stage := .finished } }
          | .group next queue =>
              { pool with
                queue
                workers := pool.workers.set i { worker with stage := .busy (.start next) } }

/-- The steps of a schedule in order. -/
def run (crew : Crew ε) (schedule : List Nat) (pool : WorkerPool σ ε) : WorkerPool σ ε :=
  schedule.foldl (step crew) pool

end Steps

section Outcome
variable {σ ε : Type}

/-- Every worker has seen the queue drained. -/
def isFinished (pool : WorkerPool σ ε) : Bool := pool.workers.all Worker.isFinished

/-- The reports of the workers, in their order. -/
def report (pool : WorkerPool σ ε) : RunReport :=
  RunReport.mergeAll (pool.workers.map Worker.report)

/-- Steps enough for one worker to take and run every group and to see the queue drained. -/
def stepsToDrain (groups : List TaskGroup) : Nat :=
  groups.foldr (fun g steps => 1 + (GroupRun.start g).remaining + steps) 1

/-- The schedule in which the first worker does everything and the others come when all is done. -/
def oneAfterAnother (pool : WorkerPool σ ε) : List Nat :=
  List.replicate (stepsToDrain pool.queue.waiting) 0 ++ List.range pool.workers.length

end Outcome
end WorkerPool
end CodeAudit
