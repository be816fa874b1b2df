import CodeAudit.Proofs.Scheduler.PoolHistory

/-! Every run ends. Each step brings its worker closer to leaving and takes no other worker further
from it, so that any interleaving ends that lets every worker move often enough. -/
namespace CodeAudit

namespace GroupRun
variable {σ τ ε : Type} [TaskStore σ τ] {crew : Crew ε} {run next : GroupRun} {store stored : σ}
  {env outside : ε} {done : List Act}

theorem Moves.remaining_lt (moves : Moves crew run store env done (.running next) stored outside) :
    next.remaining < run.remaining := by
  cases moves with
  | skip stage waiting => simp [remaining, skipDone, stage, waiting]
  | turnDown stage waiting => simp [remaining, skipFiltered, stage, waiting]
  | accept stage waiting => simp [remaining, GroupRun.accept, stage, waiting]; omega
  | unbriefed stage | first stage | brief stage | call stage => simp [remaining, stage]
  | answer stage => simp [remaining, stage]
  | save stage => simp [remaining, succeed, stage]
  | unread stage | misbrief stage | late stage | refuse stage => simp [remaining, stage]
  | blank stage | unsaved stage => simp [remaining, stage]

end GroupRun

/-- The steps that a worker may still take before a queue. -/
def Worker.pending (worker : Worker) (waiting : List TaskGroup) : Nat :=
  match worker.stage with
  | .finished => 0
  | .idle => WorkerPool.stepsToDrain waiting
  | .busy run => run.remaining + WorkerPool.stepsToDrain waiting

namespace WorkerPool
variable {σ τ ε : Type} [TaskStore σ τ] {crew : Crew ε} {pool after : WorkerPool σ ε}
  {done : List Act} {groups : List TaskGroup} {i j : Nat}

theorem stepsToDrain_cons (group : TaskGroup) (groups : List TaskGroup) :
    stepsToDrain (group :: groups) = 1 + (GroupRun.start group).remaining + stepsToDrain groups :=
  rfl

theorem stepsToDrain_pos (groups : List TaskGroup) : 0 < stepsToDrain groups := by
  cases groups with
  | nil => exact Nat.one_pos
  | cons group groups =>
    rw [stepsToDrain_cons]
    omega

theorem pending_mono (worker : Worker) (group : TaskGroup) (groups : List TaskGroup) :
    worker.pending groups ≤ worker.pending (group :: groups) := by
  have more := stepsToDrain_cons group groups
  unfold Worker.pending
  split <;> omega

def pending (pool : WorkerPool σ ε) (i : Nat) : Nat :=
  match pool.workers[i]? with
  | none => 0
  | some worker => worker.pending pool.queue.waiting

theorem Replaces.pending_self {worker before : Worker} {store : σ} {env : ε} {queue : GroupQueue}
    (replaces : pool.Replaces after i worker store env queue)
    (found : pool.workers[i]? = some before) :
    after.pending i = worker.pending queue.waiting := by
  obtain ⟨workers, rfl, rfl, rfl⟩ := replaces
  rw [pending, workers, List.getElem?_set_self (List.getElem?_eq_some_iff.mp found).1]

theorem Replaces.pending_other {worker : Worker} {store : σ} {env : ε} {queue : GroupQueue}
    (replaces : pool.Replaces after i worker store env queue) (other : i ≠ j) :
    after.pending j = (match pool.workers[j]? with
      | none => 0
      | some worker => worker.pending queue.waiting) := by
  obtain ⟨workers, rfl, rfl, rfl⟩ := replaces
  rw [pending, workers, List.getElem?_set_ne other]

/-- A step counts for its worker. -/
theorem Moves.pending_self (moves : Moves crew pool i done after)
    (closed : pool.queue.closed = true) :
    after.pending i ≤ pool.pending i - 1 := by
  cases moves with
  | absent found => simp [pending, found]
  | rest found stage => simp [pending, found, Worker.pending, stage]
  | wait _ _ _ opened => simp [closed] at opened
  | leave found stage waiting _ replaces => simp [replaces.pending_self found, Worker.pending]
  | take found stage waiting replaces =>
    rw [replaces.pending_self found]
    simp only [pending, found, Worker.pending, stage, waiting, stepsToDrain_cons]
    omega
  | work found stage moves replaces =>
    have fewer := moves.remaining_lt
    rw [replaces.pending_self found]
    simp only [pending, found, Worker.pending, stage]
    omega
  | finish found stage moves replaces | abort found stage moves replaces =>
    rw [replaces.pending_self found]
    simp only [pending, found, Worker.pending, stage, GroupRun.remaining]
    split <;> omega

/-- A step takes nothing from the others. -/
theorem Moves.pending_other (moves : Moves crew pool i done after) (other : i ≠ j) :
    after.pending j ≤ pool.pending j := by
  cases moves with
  | absent _ | rest _ _ | wait _ _ _ _ => exact Nat.le_refl _
  | leave _ _ _ _ replaces | work _ _ _ replaces | finish _ _ _ replaces =>
    rw [replaces.pending_other other, pending]
  | abort _ _ _ replaces => rw [replaces.pending_other other, pending]
  | take _ _ waiting replaces =>
    rw [replaces.pending_other other, pending, waiting]
    split
    · exact Nat.le_refl _
    · exact pending_mono _ _ _

theorem Moves.closed (moves : Moves crew pool i done after) (closed : pool.queue.closed = true) :
    after.queue.closed = true := by
  cases moves with
  | absent _ | rest _ _ | wait _ _ _ _ => exact closed
  | leave _ _ _ _ replaces | work _ _ _ replaces | finish _ _ _ replaces =>
    rw [replaces.2.2.2]
    exact closed
  | abort _ _ _ replaces | take _ _ _ replaces =>
    rw [replaces.2.2.2]
    exact closed

theorem run_pending (schedule : List Nat) (pool : WorkerPool σ ε)
    (closed : pool.queue.closed = true) (i : Nat) :
    (pool.run crew schedule).pending i ≤ pool.pending i - schedule.count i := by
  induction schedule generalizing pool with
  | nil => exact Nat.le_refl _
  | cons j schedule ih =>
    have moves := step_moves crew pool j
    refine (ih (pool.step crew j) (moves.closed closed)).trans ?_
    by_cases same : j = i
    · subst same
      have fewer := moves.pending_self closed
      rw [List.count_cons_self]
      omega
    · have kept := moves.pending_other same
      rw [List.count_cons_of_ne same]
      omega

/-- A worker that may do nothing more has left. -/
theorem isFinished_iff : pool.isFinished = true ↔ ∀ i, pool.pending i = 0 := by
  have left (worker : Worker) (groups : List TaskGroup) :
      worker.isFinished = true ↔ worker.pending groups = 0 := by
    have := stepsToDrain_pos groups
    cases stage : worker.stage <;> simp [Worker.isFinished, Worker.pending, stage] <;> omega
  unfold isFinished pending
  rw [List.all_eq_true]
  constructor
  · intro all i
    split
    · rfl
    · next worker found => exact (left worker _).mp (all worker (List.mem_of_getElem? found))
  · intro none worker member
    obtain ⟨i, below, same⟩ := List.getElem_of_mem member
    have idle := none i
    rw [List.getElem?_eq_getElem below, same] at idle
    exact (left worker _).mpr idle

/-- Nobody has more to do than all groups at the beginning. -/
theorem Reaches.pending_le {drift : σ → σ → Prop} {store : σ} {env : ε} {count : Nat}
    {history : History}
    (path : Reaches crew drift (start store env (Scheduler.fullQueue groups) count) history pool)
    (i : Nat) :
    pool.pending i ≤ stepsToDrain groups ∧ pool.queue.closed = true := by
  refine path.invariant (P := fun _ pool => pool.pending i ≤ stepsToDrain groups ∧
    pool.queue.closed = true)
    ⟨?_, rfl⟩ ?_ (fun kept _ => kept)
  · unfold pending
    split
    · exact Nat.zero_le _
    · next worker found =>
      obtain rfl := List.eq_of_mem_replicate (List.mem_of_getElem? found)
      exact Nat.le_refl _
  · rintro history pool j done after ⟨bound, closed⟩ moves
    refine ⟨?_, moves.closed closed⟩
    by_cases same : j = i
    · subst same
      exact (moves.pending_self closed).trans (by omega)
    · exact (moves.pending_other same).trans bound

/-- Wherever a run has come to, it ends once every worker has moved often enough. -/
theorem Reaches.finishes {drift : σ → σ → Prop} {store : σ} {env : ε} {count : Nat}
    {history : History}
    (path : Reaches crew drift (start store env (Scheduler.fullQueue groups) count) history pool)
    (schedule : List Nat) (often : ∀ i < count, stepsToDrain groups ≤ schedule.count i) :
    (pool.run crew schedule).isFinished = true := by
  refine isFinished_iff.mpr (fun i => ?_)
  obtain ⟨bound, closed⟩ := path.pending_le i
  have fewer : (pool.run crew schedule).pending i ≤ pool.pending i - schedule.count i :=
    run_pending schedule pool closed i
  by_cases below : i < count
  · have := often i below
    omega
  · have absent : pool.pending i = 0 := by
      unfold pending
      rw [List.getElem?_eq_none (by rw [path.stands.workers]; omega)]
    omega

/-! The schedule in which the first worker does everything. -/

theorem Moves.untouched (moves : Moves crew pool i done after) (other : i ≠ j) :
    after.workers[j]? = pool.workers[j]? := by
  cases moves with
  | absent _ | rest _ _ | wait _ _ _ _ => rfl
  | leave _ _ _ _ replaces | work _ _ _ replaces | finish _ _ _ replaces =>
    rw [replaces.1, List.getElem?_set_ne other]
  | abort _ _ _ replaces | take _ _ _ replaces => rw [replaces.1, List.getElem?_set_ne other]

theorem run_untouched (pool : WorkerPool σ ε) (steps : Nat) (other : i ≠ j) :
    (pool.run crew (List.replicate steps i)).workers[j]? = pool.workers[j]? := by
  induction steps generalizing pool with
  | zero => rfl
  | succ steps ih =>
    have first := (step_moves crew pool i).untouched other
    exact (ih (pool.step crew i)).trans first

theorem oneAfterAnother_finishes (crew : Crew ε) (groups : List TaskGroup) (count : Nat) (store : σ)
    (env : ε) :
    let before := start store env (Scheduler.fullQueue groups) count
    (before.run crew before.oneAfterAnother).isFinished = true := by
  intro before
  let middle := before.run crew (List.replicate (stepsToDrain groups) 0)
  have stands := (run_reaches crew Steady before (List.replicate (stepsToDrain groups) 0)).stands
  have first : middle.pending 0 = 0 := by
    have fewer : middle.pending 0 ≤ before.pending 0 -
        (List.replicate (stepsToDrain groups) 0).count 0 :=
      run_pending (List.replicate (stepsToDrain groups) 0) before rfl 0
    have bound := ((.refl : Reaches crew Steady before [] before).pending_le 0).1
    rw [List.count_replicate_self] at fewer
    omega
  have last : before.run crew before.oneAfterAnother = middle.run crew (List.range count) := by
    simp only [oneAfterAnother, run, List.foldl_append, middle, before, start,
      List.length_replicate,
      Scheduler.fullQueue]
  rw [last]
  refine isFinished_iff.mpr (fun i => ?_)
  have fewer : (middle.run crew (List.range count)).pending i ≤
      middle.pending i - (List.range count).count i :=
    run_pending (List.range count) middle stands.closed i
  by_cases below : i < count
  · have once : (List.range count).count i = 1 :=
      List.count_eq_one_of_mem List.nodup_range (List.mem_range.mpr below)
    suffices middle.pending i ≤ 1 by omega
    have empty : middle.queue.waiting = [] := by
      have zero : 0 < middle.workers.length := by rw [stands.workers]; omega
      refine stands.drained middle.workers[0] (List.getElem_mem zero) ?_
      unfold pending at first
      rw [List.getElem?_eq_getElem zero] at first
      cases stage : middle.workers[0].stage with
      | finished => rfl
      | idle | busy run =>
        have := stepsToDrain_pos middle.queue.waiting
        simp only [Worker.pending, stage] at first
        omega
    by_cases same : 0 = i
    · subst same
      omega
    · have idle : middle.workers[i]? = some {} := by
        rw [run_untouched before _ same]
        exact List.getElem?_replicate_of_lt below
      simp [pending, idle, empty, Worker.pending, stepsToDrain]
  · have absent : middle.pending i = 0 := by
      unfold pending
      rw [List.getElem?_eq_none (by rw [stands.workers]; omega)]
    omega

end WorkerPool
end CodeAudit
