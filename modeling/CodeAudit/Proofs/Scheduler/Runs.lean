import CodeAudit.Proofs.Scheduler.Outcome
import CodeAudit.Proofs.Scheduler.Progress
import CodeAudit.Store.Memory

/-! Whole runs, with the steps of the workers in any order. Every one of them ends, hands each group
to one worker and works it off in order. -/
namespace CodeAudit

/-- Every group has been worked off by one worker, all its tasks in their order. -/
structure History.Complete (groups : List TaskGroup) (history : History) : Prop where
  handed : history.handed.map Prod.snd = groups
  taken : ∀ group ∈ groups, ∃! i, (i, group) ∈ history.handed
  decided : ∀ group ∈ groups, history.decided.filter (· ∈ group.tasks) = group.tasks

namespace Scheduler
variable {σ τ ε : Type} [TaskStore σ τ]

abbrev crewWith (scheduler : Scheduler ε) (filter : Option (Filter ε)) : Crew ε :=
  { scheduler.crew with filter }

/-- A run over a list of tasks by any interleaving: its history, its answer, and the store and the
outside it leaves. -/
inductive Runs (scheduler : Scheduler ε) (filter : Option (Filter ε)) (drift : σ → σ → Prop)
    (tasks : List Task) (store : σ) (env : ε) :
    History → Except Fault RunReport → σ → ε → Prop where
  | refused : tasks.find? (fun t => t.id = 0) = some task →
      Runs scheduler filter drift tasks store env [] (.error (.unstoredTask task.name)) store env
  | nothing : tasks.find? (fun t => t.id = 0) = none → TaskGroup.partition tasks = [] →
      Runs scheduler filter drift tasks store env [] (.ok {}) store env
  | ended : tasks.find? (fun t => t.id = 0) = none → TaskGroup.partition tasks ≠ [] →
      WorkerPool.Reaches (scheduler.crewWith filter) drift
        (scheduler.pool (TaskGroup.partition tasks) store env) history after →
      after.isFinished = true →
      Runs scheduler filter drift tasks store env history (.ok after.report) after.store after.env

inductive ProjectRuns (scheduler : Scheduler ε) (filter : Option (Filter ε)) (drift : σ → σ → Prop)
    (project : Text) (store : σ) (env : ε) : History → Except Fault RunReport → σ → ε → Prop where
  | unread : (TaskStore.projectTasks project store).value = .error fault →
      ProjectRuns scheduler filter drift project store env [] (.error fault)
        (TaskStore.projectTasks project store).state env
  | read : (TaskStore.projectTasks project store).value = .ok tasks →
      Runs scheduler filter drift tasks (TaskStore.projectTasks project store).state env history
        answer stored
        outside →
      ProjectRuns scheduler filter drift project store env history answer stored outside

variable (scheduler : Scheduler ε) (filter : Option (Filter ε)) (tasks : List Task) (store : σ)
  (env : ε)

/-- The run with one worker after another is one of them. -/
theorem runList_runs : ∃ history, Runs scheduler filter WorkerPool.Steady tasks store env history
    (scheduler.runList filter tasks store env).value
      (scheduler.runList filter tasks store env).state.1
    (scheduler.runList filter tasks store env).state.2 := by
  unfold runList
  rcases unstored : tasks.find? (fun t => t.id = 0) with _ | task
  · rcases groups : TaskGroup.partition tasks with _ | ⟨group, rest⟩
    · simp only [unstored]
      exact ⟨[], .nothing unstored groups⟩
    · simp only [unstored]
      let before := scheduler.pool (group :: rest) store env
      refine ⟨before.runActs (scheduler.crewWith filter) before.oneAfterAnother,
        .ended unstored ?_ ?_ ?_⟩
      · rw [groups]
        exact List.cons_ne_nil _ _
      · rw [groups]
        exact WorkerPool.run_reaches _ _ _ _
      · exact WorkerPool.oneAfterAnother_finishes _ _ _ _ _
  · simp only [unstored]
    exact ⟨[], .refused unstored⟩

theorem runProject_runs (project : Text) :
    ∃ history, ProjectRuns scheduler filter WorkerPool.Steady project store env history
      (scheduler.runProject filter project store env).value
        (scheduler.runProject filter project store env).state.1
      (scheduler.runProject filter project store env).state.2 := by
  unfold runProject
  rcases loaded : (TaskStore.projectTasks project store).value with fault | tasks
  · simp only [loaded]
    exact ⟨[], .unread loaded⟩
  · simp only [loaded]
    obtain ⟨history, runs⟩ :=
      runList_runs scheduler filter tasks (TaskStore.projectTasks project store).state env
    exact ⟨history, .read loaded runs⟩

variable {scheduler filter tasks store env} {drift : σ → σ → Prop} {history : History}
  {pool : WorkerPool σ ε} {answer : Except Fault RunReport} {stored : σ} {outside : ε}

theorem find_unstored (known : ∀ task ∈ tasks, task.id ≠ 0) :
    tasks.find? (fun t => t.id = 0) = none :=
  List.find?_eq_none.mpr (fun task member => by simpa using known task member)

/-- No more workers than groups, but one at least. -/
theorem manned (workers : 1 ≤ scheduler.workers) {groups : List TaskGroup} (some : groups ≠ []) :
    0 < min scheduler.workers.toNat groups.length := by
  have positive := UInt64.le_iff_toNat_le.mp workers
  have length := List.length_pos_iff.mpr some
  simp only [UInt64.toNat_one] at positive
  omega

theorem Runs.widen (wider : σ → σ → Prop)
    (runs : Runs scheduler filter drift tasks store env history answer stored outside)
    (allows : ∀ before after, drift before after → wider before after) :
    Runs scheduler filter wider tasks store env history answer stored outside := by
  cases runs with
  | refused unstored => exact .refused unstored
  | nothing stored none => exact .nothing stored none
  | ended stored some path finished => exact .ended stored some (path.widen allows) finished

theorem ProjectRuns.widen (wider : σ → σ → Prop) {project : Text}
    (runs : ProjectRuns scheduler filter drift project store env history answer stored outside)
    (allows : ∀ before after, drift before after → wider before after) :
    ProjectRuns scheduler filter wider project store env history answer stored outside := by
  cases runs with
  | unread refused => exact .unread refused
  | read loaded runs => exact .read loaded (runs.widen wider allows)

/-- A run leaves what one of the interleavings has come to. -/
theorem Runs.reached
    (runs : Runs scheduler filter drift tasks store env history answer stored outside) :
    ∃ pool, WorkerPool.Reaches (scheduler.crewWith filter) drift
      (scheduler.pool (TaskGroup.partition tasks) store env) history pool ∧
        pool.store = stored := by
  cases runs with
  | refused _ | nothing _ _ => exact ⟨_, .refl, rfl⟩
  | ended _ _ path _ => exact ⟨_, path, rfl⟩

theorem Runs.refusal {task : Task}
    (runs : Runs scheduler filter drift tasks store env history answer stored outside)
    (unstored : tasks.find? (fun t => t.id = 0) = some task) :
    answer = .error (.unstoredTask task.name) ∧ stored = store := by
  cases runs with
  | refused found =>
    obtain rfl := Option.some.inj (found.symm.trans unstored)
    exact ⟨rfl, rfl⟩
  | nothing fine _ | ended fine _ _ _ =>
    rw [unstored] at fine
    contradiction

/-- The report of a run tells one fate of every task. -/
theorem Runs.outcome
    (runs : Runs scheduler filter drift tasks store env history answer stored outside)
    (known : ∀ task ∈ tasks, task.id ≠ 0) (distinct : (tasks.map Task.id).Nodup)
    (workers : 1 ≤ scheduler.workers) (decides : (scheduler.crewWith filter).Decides) :
    answer = .ok (.ofFates (TaskGroup.partition tasks).length history.fates) ∧
      (history.fates.map Prod.fst).Perm tasks := by
  have splits := TaskGroup.partition_splits tasks
  cases runs with
  | refused unstored => simp [find_unstored known] at unstored
  | nothing _ none =>
    obtain rfl : tasks = [] := List.Perm.nil_eq (none ▸ splits).perm |>.symm
    exact ⟨congrArg _ RunReport.ofFates_nil.symm, .refl _⟩
  | ended _ some path finished =>
    have positive := manned workers some
    exact ⟨congrArg _ (path.stands.report finished positive decides splits distinct),
      path.stands.fates_perm finished positive decides splits⟩

theorem Runs.complete
    (runs : Runs scheduler filter drift tasks store env history answer stored outside)
    (known : ∀ task ∈ tasks, task.id ≠ 0) (distinct : tasks.Nodup) (workers : 1 ≤ scheduler.workers)
    (decides : (scheduler.crewWith filter).Decides) :
    history.Complete (TaskGroup.partition tasks) := by
  have splits := TaskGroup.partition_splits tasks
  cases runs with
  | refused unstored => simp [find_unstored known] at unstored
  | nothing _ none =>
    rw [none]
    exact ⟨rfl, nofun, nofun⟩
  | ended _ some path finished =>
    have positive := manned workers some
    refine ⟨path.stands.handed_all finished positive, fun group member => ?_,
      fun group member => ?_⟩
    · exact path.stands.handed_to finished positive (splits.nodup distinct) member
    · exact path.stands.decided_all finished positive decides splits distinct member

/-- Whatever the collaborators and the store do, wherever the workers have come to they are in order
and the outside has been asked just what the history tells, and they come to an end that leaves
nothing out. -/
theorem groups_run_once (scheduler : Scheduler ε) (filter : Option (Filter ε)) (tasks : List Task)
    (known : ∀ task ∈ tasks, task.id ≠ 0) (distinct : (tasks.map Task.id).Nodup)
    (workers : 1 ≤ scheduler.workers) (decides : (scheduler.crewWith filter).Decides)
    (drift : σ → σ → Prop) (store : σ) (env : ε) :
    (∀ history pool, WorkerPool.Reaches (scheduler.crewWith filter) drift
        (scheduler.pool (TaskGroup.partition tasks) store env) history pool →
      history.Orderly (scheduler.crewWith filter) (TaskGroup.partition tasks) ∧
      pool.env = (history.map Prod.snd).foldl (Act.ask (scheduler.crewWith filter)) env ∧
      ∀ schedule, (∀ i < pool.workers.length,
          WorkerPool.stepsToDrain (TaskGroup.partition tasks) ≤ schedule.count i) →
        (pool.run (scheduler.crewWith filter) schedule).isFinished = true) ∧
    ∀ history answer stored outside,
      scheduler.Runs filter drift tasks store env history answer stored outside →
      (∃ report, answer = .ok report) ∧
      history.Orderly (scheduler.crewWith filter) (TaskGroup.partition tasks) ∧
      history.Complete (TaskGroup.partition tasks) := by
  have once : tasks.Nodup := .of_map _ distinct
  refine ⟨fun history pool path => ⟨?_, path.asked, fun schedule often => ?_⟩, ?_⟩
  · exact path.stands.orderly decides (TaskGroup.partition_splits tasks) once
  · exact path.finishes schedule (path.stands.workers ▸ often)
  · intro history answer stored outside runs
    obtain ⟨pool, path, _⟩ := runs.reached
    exact ⟨⟨_, (runs.outcome known distinct workers decides).1⟩,
      path.stands.orderly decides (TaskGroup.partition_splits tasks) once,
        runs.complete known once workers decides⟩

/-- Two tasks of one group, and somebody who has the same to say about every task. -/
def pair : List Task := [{ id := 1, groupId := some [] }, { id := 2, groupId := some [] }]

def pairScheduler : Scheduler Unit :=
  { workers := 2,
    crew := { executor := fun _ _ env => { value := .immediate (.ok (utf8 "safe")), state := env } }
    }

/-- The two tasks of one group, and a third one by itself. -/
def trio : List Task := pair ++ [{ id := 3 }]

theorem groups_run_once_trio :
    let full : MemoryStore := { committed := { tasks := trio } }
    let after := (pairScheduler.runList none trio full ()).state.1
    (∃ history answer outside,
      pairScheduler.Runs none WorkerPool.Steady trio full () history answer after outside ∧
        history.Complete (TaskGroup.partition trio)) ∧
      after.committed.tasks = trio.map (fun task => { task with result := utf8 "safe" }) := by
  intro full after
  obtain ⟨history, runs⟩ := runList_runs pairScheduler none trio full ()
  have outcome := (groups_run_once pairScheduler none trio (by decide) (by decide) (by decide)
    (fun _ _ _ => nofun) WorkerPool.Steady full ()).2 _ _ _ _ runs
  exact ⟨⟨history, _, _, runs, outcome.2.2⟩, by decide +kernel⟩

end Scheduler
end CodeAudit
