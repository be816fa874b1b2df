import CodeAudit.Proofs.Scheduler.Amendments
import CodeAudit.Proofs.Scheduler.Runs
import CodeAudit.Proofs.Store.Tidy
import CodeAudit.Proofs.Store.Unreliable

/-! What a run reports of a task is what it has done to the task's row. Whatever fails on the way, a
row changes only where its task has succeeded, and then holds the executor's answer. -/
namespace CodeAudit

open TaskStore

theorem History.mem_fates {history : History} {task : Task} {fate : Fate} :
    (task, fate) ∈ history.fates ↔ ∃ i act, (i, act) ∈ history ∧ act.fate? = some (task, fate) := by
  constructor
  · intro member
    obtain ⟨⟨i, act⟩, inside, sealed⟩ := List.mem_filterMap.mp member
    exact ⟨i, act, inside, sealed⟩
  · rintro ⟨i, act, inside, sealed⟩
    exact List.mem_filterMap.mpr ⟨(i, act), inside, sealed⟩

/-- Only a commit makes a success. -/
theorem Act.fate_succeeded {act : Act} {task : Task} {result : Text} :
    act.fate? = some (task, .succeeded result) ↔ act = .committed task result := by
  constructor
  · intro sealed
    cases act with
    | committed => simpa [Act.fate?] using sealed
    | judged _ verdict => rcases verdict with fault | _ | _ <;> simp [Act.fate?] at sealed
    | settled _ state => cases state <;> simp [Act.fate?] at sealed
    | _ => simp [Act.fate?] at sealed
  · rintro rfl
    rfl

namespace WorkerPool
variable {σ τ ε : Type} [TaskStore σ τ] {crew : Crew ε} {groups : List TaskGroup} {count : Nat}
  {history : History} {pool start : WorkerPool σ ε} {task : Task} {fate : Fate} {result : Text}

/-- A task is passed over as done just where it has a result. -/
theorem Stands.fate_done (stands : Stands crew groups count history pool)
    (met : (task, fate) ∈ history.fates) :
    fate = .done ↔ task.isDone = true := by
  obtain ⟨i, act, member, sealed⟩ := History.mem_fates.mp met
  obtain ⟨before, later, split⟩ := List.append_of_mem member
  have follows := stands.follows split
  cases act with
  | skipped other =>
    obtain ⟨rfl, rfl⟩ := Prod.mk.inj (Option.some.inj sealed)
    exact ⟨fun _ => follows, fun _ => rfl⟩
  | judged other verdict =>
    rcases verdict with fault | _ | _
    all_goals simp only [Act.fate?, Option.some.injEq, Prod.mk.injEq, reduceCtorEq] at sealed
    obtain ⟨rfl, rfl⟩ := sealed
    simp [follows.1]
  | committed other text =>
    obtain ⟨rfl, rfl⟩ := Prod.mk.inj (Option.some.inj sealed)
    simp [follows.1]
  | settled other state =>
    have undone : other.isDone = false := follows
    cases state <;> simp only [Act.fate?, Option.some.injEq, Prod.mk.injEq, reduceCtorEq] at sealed
    all_goals
      obtain ⟨rfl, rfl⟩ := sealed
      simp [undone]
  | _ => contradiction

/-- A success is the answer, in time and not empty, of a call that the executor got for the task. -/
theorem Stands.answered (stands : Stands crew groups count history pool)
    (met : (task, .succeeded result) ∈ history.fates) : result ≠ [] ∧ ∃ i summary env, let call :=
      (crew.executor task { groupSummary := summary } env).value
      (i, .called task summary) ∈ history ∧ (i, .returned task call) ∈ history ∧
      GroupRun.isLate crew.limit call.span = false ∧ call.answer = .ok result := by
  obtain ⟨i, act, member, sealed⟩ := History.mem_fates.mp met
  obtain rfl := Act.fate_succeeded.mp sealed
  obtain ⟨before, later, split⟩ := List.append_of_mem member
  obtain ⟨_, nonempty, call, returned, timely, answer⟩ := stands.follows split
  have ended : (i, .returned task call) ∈ history :=
    split ▸ List.mem_append_left _ (History.mem_own.mp returned)
  obtain ⟨earlier, rest, parted⟩ := List.append_of_mem ended
  obtain ⟨summary, env, called, rfl⟩ := stands.follows parted
  have began : (i, .called task summary) ∈ history :=
    parted ▸ List.mem_append_left _ (History.mem_own.mp called)
  exact ⟨nonempty, i, summary, env, began, ended, timely, answer⟩

variable [Lawful σ] {drift : σ → σ → Prop} {i : Nat}

/-- Only a result for a row that is there is committed. -/
theorem committed_present {run : GroupRun} {store stored : σ} {env outside : ε} {done : List Act}
    {progress : GroupRun.Progress} (moves : run.Moves crew store env done progress stored outside)
    (member : .committed task result ∈ done) : ∃ row ∈ rows store, row.id = task.id := by
  cases moves with
  | @save other text _ saved =>
    obtain ⟨rfl, rfl⟩ : task = other ∧ result = text := by simpa using member
    rcases saveResult_writes store task.id result with ⟨_, present, _⟩ | ⟨⟨fault, refused⟩, _⟩
    · exact present
    · rw [refused] at saved
      contradiction
  | _ => simp at member

/-- What is committed is for a row that has been there from the beginning. -/
theorem Reaches.present (path : Reaches crew drift start history pool)
    (drifts : ∀ before after, drift before after → rows after = rows before)
    (met : (task, .succeeded result) ∈ history.fates) :
    ∃ row ∈ rows start.store, row.id = task.id := by
  obtain ⟨i, act, member, sealed⟩ := History.mem_fates.mp met
  obtain rfl := Act.fate_succeeded.mp sealed
  obtain ⟨earlier, before, later, reached, taken, _⟩ := path.origin member
  obtain ⟨_, _, _, _, _, _, _, moves⟩ := (step_moves crew before i).working taken rfl
  obtain ⟨row, inside, same⟩ := committed_present moves taken
  rw [reached.rows_amended drifts] at inside
  obtain ⟨old, there, rfl⟩ := List.mem_map.mp inside
  exact ⟨old, there, (amended_id _ _ old).symm.trans same⟩

/-- Of each task, the report tells the one fate that it has met. -/
theorem states_fate {groups : Nat} {fates : List (Task × Fate)}
    (distinct : (fates.map (·.1.id)).Nodup) (met : (task, fate) ∈ fates) (state : TaskState) :
    (task.id, state) ∈ (RunReport.ofFates groups fates).states ↔ state = fate.state := by
  rw [RunReport.ofFates, RunReport.mem_statesOf distinct]
  constructor
  · rintro ⟨told, member, same⟩
    obtain ⟨alike, rfl⟩ := Prod.mk.inj same
    rw [← List.inj_on_of_nodup_map distinct met member alike]
  · rintro rfl
    exact ⟨(task, fate), met, rfl⟩

end WorkerPool

namespace Unreliable
variable {ε : Type} {backend : Backend} {crew : Crew ε} {history : History}
  {start pool : WorkerPool (Unreliable backend.Store) ε}

/-- Whatever fails, the store is that of the beginning with the results of the run. -/
theorem store_amended (path : WorkerPool.Reaches crew Drifts start history pool) :
    pool.store.store = mapRows (amended (keep backend.Store) history.fates) start.store.store :=
  path.stored Unreliable.store (fun _ _ drifted => drifted)
    (fun change _ _ same => congrArg (mapRows change) same)

end Unreliable

namespace Scheduler
variable {ε : Type}

/-- What has become of a task: the state that the report gives it, and its row. -/
structure Accounted {backend : Backend} (crew : Crew ε) (history : History) (report : RunReport)
    (before after : backend.Store) (task : Task) (fate : Fate) : Prop where
  state : ∀ state, (task.id, state) ∈ report.states ↔ state = fate.state
  done : fate = .done ↔ task.isDone = true
  /-- The row of a task that was executed and succeeded holds what the executor returned. -/
  saved : ∀ result, fate = .succeeded result → result ≠ [] ∧
    (∃ i summary env, let call := (crew.executor task { groupSummary := summary } env).value
      (i, .called task summary) ∈ history ∧ (i, .returned task call) ∈ history ∧
        call.answer = .ok result) ∧
    (∃ row ∈ rows after, row.id = task.id) ∧ ∀ row ∈ rows after, row.id = task.id →
      row.result = result
  /-- The row of any other task is the one of before. -/
  kept : fate.result? = none →
    (rows after).filter (fun row => row.id = task.id) =
      (rows before).filter (fun row => row.id = task.id)

/-- The row of a task with a fate is the one of before, or it holds the result. -/
theorem rows_fate {fates : List (Task × Fate)} {task : Task} {fate : Fate} (keep : Text → Text)
    (before : List Task) (distinct : (fates.map (·.1.id)).Nodup) (met : (task, fate) ∈ fates) :
    (∀ result, fate = .succeeded result → ∀ row ∈ before.map (amended keep fates),
      row.id = task.id →
      row.result = keep result) ∧
    (fate.result? = none → (before.map (amended keep fates)).filter (fun row => row.id = task.id) =
      before.filter (fun row => row.id = task.id)) := by
  constructor
  · rintro result rfl row member same
    obtain ⟨old, _, rfl⟩ := List.mem_map.mp member
    rw [amended_id] at same
    rw [amended_met distinct met same.symm]
  · intro unsaved
    rw [List.filter_map]
    have alike : ((fun row : Task => decide (row.id = task.id)) ∘ amended keep fates) =
        fun row => decide (row.id = task.id) :=
          funext (fun row => by simp only [Function.comp, amended_id])
    rw [alike]
    refine (List.map_congr_left (fun row member => ?_)).trans (List.map_id _)
    have same : row.id = task.id := of_decide_eq_true (List.mem_filter.mp member).2
    refine amended_unmet (fun other result found meets => ?_)
    have one := List.inj_on_of_nodup_map distinct found met (meets.trans same)
    rw [← (Prod.mk.inj one).2] at unsaved
    contradiction

/-- Whatever collaborators and store steps fail and however the workers' steps interleave, the
report and the store agree on every task; of the whole store only results change, and only those of
tasks that have succeeded. -/
theorem report_agrees_with_store {backend : Backend} (scheduler : Scheduler ε)
    (filter : Option (Filter ε)) (tasks : List Task) (known : ∀ task ∈ tasks, task.id ≠ 0)
    (distinct : (tasks.map Task.id).Nodup) (workers : 1 ≤ scheduler.workers)
    (decides : (scheduler.crewWith filter).Decides)
    (plain : backend = .table → ∀ task briefing env result,
      (scheduler.crew.executor task briefing env).value.answer = .ok result → 0 ∉ result)
    (store : Unreliable backend.Store) (env : ε) {history : History}
    {answer : Except Fault RunReport}
    {stored : Unreliable backend.Store} {outside : ε}
    (runs : scheduler.Runs filter Unreliable.Drifts tasks store env history answer stored outside) :
    ∃ report change, answer = .ok report ∧
      (∀ task ∈ tasks, ∃ fate,
        Accounted (scheduler.crewWith filter) history report store.store stored.store task fate) ∧
      stored.store = mapRows change store.store ∧
      ∀ row, (∃ result, change row = { row with result }) ∧
        ((∀ task ∈ tasks, ∀ result, (task, .succeeded result) ∈ history.fates → task.id ≠ row.id) →
          change row = row) := by
  obtain ⟨answered, all⟩ := runs.outcome known distinct workers decides
  obtain ⟨pool, path, ended⟩ := runs.reached
  have once : (history.fates.map (·.1.id)).Nodup := RunReport.ids_nodup all distinct
  have amends : stored.store = mapRows (amended (keep backend.Store) history.fates) store.store :=
    ended ▸ Unreliable.store_amended path
  refine ⟨_, amended (keep backend.Store) history.fates, answered, ?_, amends, fun row => ⟨?_, ?_⟩⟩
  · intro task member
    obtain ⟨⟨_, fate⟩, met, rfl⟩ := List.mem_map.mp (all.mem_iff.mpr member)
    have written := rows_fate (keep backend.Store) (rows store.store) once met
    rw [← Lawful.rows_mapRows, ← amends] at written
    refine ⟨fate, WorkerPool.states_fate once met, path.stands.fate_done met, ?_, written.2⟩
    rintro result rfl
    obtain ⟨nonempty, i, summary, env, called, returned, _, answer⟩ := path.stands.answered met
    refine ⟨nonempty, ⟨i, summary, env, called, returned, answer⟩, ?_, fun row inside same => ?_⟩
    · obtain ⟨row, inside, same⟩ := path.present (fun _ _ => Unreliable.rows_drifts) met
      refine ⟨amended (keep backend.Store) history.fates row, ?_, (amended_id _ _ _).trans same⟩
      rw [amends, Lawful.rows_mapRows]
      exact List.mem_map_of_mem inside
    · rw [written.1 result rfl row inside same]
      exact Backend.keep_plain (fun isTable => plain isTable _ _ _ _ answer)
  · exact amended_frame _ _ row
  · intro unmet
    refine amended_unmet (fun task result met => ?_)
    exact unmet task (all.mem_iff.mp (List.mem_map_of_mem met)) result met

def pairStore : Unreliable Backend.memory.Store := { store := { committed := { tasks := pair } } }

theorem report_agrees_with_store_pair : ∃ history report stored outside,
    pairScheduler.Runs none Unreliable.Drifts pair pairStore () history (.ok report)
      stored outside ∧
      ∀ task ∈ pair, ∃ fate,
        Accounted (pairScheduler.crewWith none) history report pairStore.store stored.store task
          fate := by
  obtain ⟨history, runs⟩ := runList_runs pairScheduler none pair pairStore ()
  have widened := runs.widen Unreliable.Drifts (fun _ _ => False.elim)
  obtain ⟨report, _, answer, accounted, _⟩ :=
    @report_agrees_with_store Unit .memory pairScheduler none pair
    (by decide) (by decide) (by decide) (fun _ _ _ => nofun) (fun table => nomatch table) pairStore
      () _ _ _ _ widened
  exact ⟨history, report, _, _, answer ▸ widened, accounted⟩

end Scheduler
end CodeAudit
