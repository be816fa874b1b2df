import CodeAudit.Scheduler

/-! What workers do, as others can see it. A history lists the acts of a pool in their order, each
with the worker whose act it is, for any interleaving of the workers' steps. -/
namespace CodeAudit

inductive Act where
  | took (group : TaskGroup)
  /-- The task has a result already. -/
  | skipped (task : Task)
  | judged (task : Task) (verdict : Except Fault Bool)
  /-- There is nobody to summarize, or nothing to be summarized. -/
  | unbriefed (task : Task)
  /-- Finished siblings were handed to the summarizer. -/
  | briefed (task : Task) (siblings : List Task) (summary : Except Fault (Option Text))
  | called (task : Task) (summary : Option Text)
  /-- The executor's call has ended; one that outlasts its limit has been waited for. -/
  | returned (task : Task) (call : Call)
  | committed (task : Task) (result : Text)
  | settled (task : Task) (state : TaskState)

def Fault.state (fault : Fault) : TaskState := if fault.kind = .timeout then .requeued else .failed

namespace Act

def group? : Act → Option TaskGroup
  | took group => some group
  | _ => none

def task? : Act → Option Task
  | took _ => none
  | skipped task | judged task _ | unbriefed task | briefed task _ _ | called task
      _ | returned task _
  | committed task _ | settled task _ => some task

def decided? : Act → Option Task
  | skipped task | judged task _ => some task
  | _ => none

def called? : Act → Option Task
  | called task _ => some task
  | _ => none

end Act

namespace GroupRun
variable {σ τ ε : Type} [TaskStore σ τ]

def acts (crew : Crew ε) (run : GroupRun) (store : σ) (env : ε) : List Act :=
  match run.stage with
  | .deciding =>
      match run.waiting with
      | [] => []
      | task :: _ => if task.isDone then [.skipped task] else [.judged task (crew.judge task env).1]
  | .briefing task =>
      match crew.summarizer, task.groupId with
      | some summarize, some group =>
          match (TaskStore.finishedSiblings group store).value with
          | .error fault => [.settled task fault.state]
          | .ok done =>
              match done.filter (fun t => t.id ≠ task.id) with
              | [] => [.unbriefed task]
              | siblings =>
                  match (summarize siblings env).value with
                  | .error fault =>
                      [.briefed task siblings (.error fault), .settled task fault.state]
                  | .ok text => [.briefed task siblings (.ok text)]
      | _, _ => [.unbriefed task]
  | .launching task groupSummary => [.called task groupSummary]
  | .awaiting task call =>
      if isLate crew.limit call.span then [.returned task call, .settled task .requeued]
      else
        match call.answer with
        | .error fault => [.returned task call, .settled task fault.state]
        | .ok [] => [.returned task call, .settled task .failed]
        | .ok _ => [.returned task call]
  | .saving task result =>
      match (TaskStore.saveResult task.id result store).value with
      | .error fault => [.settled task fault.state]
      | .ok () => [.committed task result, .settled task .succeeded]

end GroupRun

abbrev History := List (Nat × Act)

namespace History

def own (worker : Nat) (history : History) : List Act :=
  history.filterMap (fun (i, act) => if i = worker then some act else none)

/-- The groups that were handed out, each with the worker it went to. -/
def handed (history : History) : List (Nat × TaskGroup) :=
  history.filterMap (fun (i, act) => act.group?.map (fun group => (i, group)))

def decided (history : History) : List Task := history.filterMap (fun (_, act) => act.decided?)

def called (history : History) : List Task := history.filterMap (fun (_, act) => act.called?)

end History

namespace WorkerPool
variable {σ τ ε : Type} [TaskStore σ τ]

def acts (crew : Crew ε) (pool : WorkerPool σ ε) (i : Nat) : List Act :=
  match (pool.workers[i]?).map Worker.stage with
  | some (.busy run) => run.acts crew pool.store pool.env
  | some .idle =>
      match pool.queue.dequeue with
      | .group next _ => [.took next]
      | _ => []
  | _ => []

/-- The pool after some steps of its workers in any order, with their history. Between two steps the
store may also change by itself as far as `drift` allows. -/
inductive Reaches (crew : Crew ε) (drift : σ → σ → Prop) (start : WorkerPool σ ε) :
    History → WorkerPool σ ε → Prop where
  | refl : Reaches crew drift start [] start
  | step (i : Nat) : Reaches crew drift start history pool →
      Reaches crew drift start (history ++ (pool.acts crew i).map (i, ·)) (pool.step crew i)
  | drift : Reaches crew drift start history pool → drift pool.store changed →
      Reaches crew drift start history { pool with store := changed }

/-- Nothing but the workers changes the store. -/
abbrev Steady (_ _ : σ) : Prop := False

def runActs (crew : Crew ε) : List Nat → WorkerPool σ ε → History
  | [], _ => []
  | i :: rest, pool => (pool.acts crew i).map (i, ·) ++ runActs crew rest (pool.step crew i)

theorem Reaches.run {crew : Crew ε} {drift : σ → σ → Prop} {start pool : WorkerPool σ ε}
    {history : History} (path : Reaches crew drift start history pool) (schedule : List Nat) :
    Reaches crew drift start (history ++ pool.runActs crew schedule) (pool.run crew schedule) := by
  induction schedule generalizing history pool with
  | nil => simpa only [runActs, List.append_nil, WorkerPool.run, List.foldl_nil] using path
  | cons i rest ih =>
    simpa only [runActs, List.append_assoc, WorkerPool.run, List.foldl_cons] using ih (path.step i)

theorem Reaches.widen {crew : Crew ε} {drift wider : σ → σ → Prop} {start pool : WorkerPool σ ε}
    {history : History} (path : Reaches crew drift start history pool)
    (allows : ∀ before after, drift before after → wider before after) :
    Reaches crew wider start history pool := by
  induction path with
  | refl => exact .refl
  | step i _ ih => exact ih.step i
  | drift _ drifted ih => exact ih.drift (allows _ _ drifted)

/-- Every schedule is one of the interleavings. -/
theorem run_reaches (crew : Crew ε) (drift : σ → σ → Prop) (pool : WorkerPool σ ε)
    (schedule : List Nat) :
    Reaches crew drift pool (pool.runActs crew schedule) (pool.run crew schedule) := by
  simpa only [List.nil_append] using (Reaches.refl : Reaches crew drift pool [] pool).run schedule

end WorkerPool
end CodeAudit
