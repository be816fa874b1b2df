import CodeAudit.Proofs.Scheduler.Runs
import Mathlib.Algebra.Group.Nat.Defs

/-! The books of a run. Each task is counted in one way and stands in the state that goes with it,
so that the counters of a report add up; ids that are neither zero nor the same are too few for a
counter to wrap. -/
namespace CodeAudit

/-- There are no more groups than tasks. -/
theorem TaskGroup.Splits.length_le {tasks : List Task} {groups : List TaskGroup}
    (splits : Splits tasks groups) :
    groups.length ≤ tasks.length := by
  rw [← splits.perm.length_eq]
  have inhabited := splits.inhabited
  clear splits
  induction groups with
  | nil => exact Nat.zero_le _
  | cons group rest ih =>
    have first := List.length_pos_iff.mpr (inhabited group List.mem_cons_self)
    have others := ih (fun other member => inhabited other (List.mem_cons_of_mem _ member))
    rw [List.flatMap_cons, List.length_append, List.length_cons]
    omega

/-- There are fewer tasks with ids of their own than numbers. -/
theorem tasks_length_lt {tasks : List Task} (known : ∀ task ∈ tasks, task.id ≠ 0)
    (distinct : (tasks.map Task.id).Nodup) : tasks.length < 2 ^ 64 := by
  have once : ((tasks.map Task.id).map UInt64.toNat).Nodup :=
    distinct.map (fun _ _ => UInt64.toNat.inj)
  have inside : (tasks.map Task.id).map UInt64.toNat ⊆ List.range' 1 (2 ^ 64 - 1) := by
    intro number member
    simp only [List.map_map, List.mem_map, Function.comp_apply] at member
    obtain ⟨task, listed, rfl⟩ := member
    have positive : task.id.toNat ≠ 0 := fun zero => known task listed (UInt64.toNat.inj zero)
    have bound := task.id.toNat_lt
    exact List.mem_range'_1.mpr (by omega)
  have few := (List.subperm_of_subset once inside).length_le
  simp only [List.length_map, List.length_range'] at few
  omega

namespace RunReport

def inState (report : RunReport) (state : TaskState) : Nat :=
  report.states.countP (fun (_, s) => s = state)

/-- The counters of a report about some tasks add up, and the states of the tasks bear them out. -/
structure Balances (report : RunReport) (tasks : List Task) : Prop where
  groups : report.groups.toNat = (TaskGroup.partition tasks).length
  executed : report.executed.toNat = report.succeeded.toNat + report.failed.toNat +
    report.timedOut.toNat
  total : report.executed.toNat + report.skippedDone.toNat + report.skippedFiltered.toNat =
    tasks.length
  ids : (report.states.map Prod.fst).Perm (tasks.map Task.id)
  succeeded : report.inState .succeeded = report.succeeded.toNat + report.skippedDone.toNat
  failed : report.inState .failed = report.failed.toNat
  requeued : report.inState .requeued = report.timedOut.toNat
  pending : report.inState .pending = report.skippedFiltered.toNat
  running : ∀ entry ∈ report.states, entry.2 ≠ .running

section Fates
variable {fates : List (Task × Fate)} {tasks : List Task} {groups : Nat}

/-- Where no id occurs twice, there is one state for each fate. -/
theorem statesOf_perm_map (distinct : (fates.map (·.1.id)).Nodup) :
    (statesOf fates).Perm (fates.map (fun (task, fate) => (task.id, fate.state))) := by
  have once : (fates.map (fun (task, fate) => (task.id, fate.state))).Nodup := by
    refine .of_map Prod.fst ?_
    rwa [List.map_map]
  refine (List.perm_ext_iff_of_nodup (.of_map _ (statesOf_ordered fates).keys_nodup) once).mpr
    (fun entry => ?_)
  rw [mem_statesOf distinct, List.mem_map]
  exact exists_congr (fun told => and_congr_right (fun _ => eq_comm))

theorem inState_ofFates (distinct : (fates.map (·.1.id)).Nodup) (state : TaskState) :
    (ofFates groups fates).inState state = fates.countP (fun told => told.2.state = state) := by
  rw [inState, ofFates, (statesOf_perm_map distinct).countP_eq, List.countP_map]
  rfl

/-- The counts of two signs that exclude each other add up. -/
theorem countP_split (pick first second : Fate → Bool)
    (either : ∀ fate, (pick fate).toNat = (first fate).toNat + (second fate).toNat)
    (fates : List (Task × Fate)) :
    fates.countP (fun told => pick told.2) =
      fates.countP (fun told => first told.2) + fates.countP (fun told => second told.2) := by
  induction fates with
  | nil => rfl
  | cons told fates ih =>
    have here := either told.2
    simp only [Bool.toNat, Bool.cond_eq_ite] at here
    simp only [List.countP_cons, ih, here]
    omega

/-- What is executed succeeds, fails or is put back. -/
theorem countP_executed (fates : List (Task × Fate)) :
    fates.countP (fun told => told.2.isExecuted) =
    fates.countP (fun told => told.2.result?.isSome) + fates.countP (fun told => told.2 = .failed) +
      fates.countP (fun told => told.2 = .requeued) := by
  let ended (fate : Fate) : Bool := fate.result?.isSome || fate = .failed
  have first := countP_split ended (fun fate => fate.result?.isSome) (fun fate => fate = .failed)
    (by rintro (_ | _ | _ | _ | _) <;> rfl) fates
  rw [← first]
  exact countP_split Fate.isExecuted ended (fun fate => fate = .requeued)
    (by rintro (_ | _ | _ | _ | _) <;> rfl) fates

/-- What is not executed had a result or was turned down. -/
theorem countP_all (fates : List (Task × Fate)) : fates.countP (fun told => told.2.isExecuted) +
    fates.countP (fun told => told.2 = .done) + fates.countP (fun told => told.2 = .turnedDown) =
      fates.length := by
  let reached (fate : Fate) : Bool := fate.isExecuted || fate = .done
  have first := countP_split reached Fate.isExecuted (fun fate => fate = .done)
    (by rintro (_ | _ | _ | _ | _) <;> rfl) fates
  have every := countP_split (fun _ => true) reached (fun fate => fate = .turnedDown)
    (by rintro (_ | _ | _ | _ | _) <;> rfl) fates
  rw [← first, ← every, List.countP_true]

theorem countP_succeeded (fates : List (Task × Fate)) :
    fates.countP (fun told => told.2.state = .succeeded) =
    fates.countP (fun told => told.2.result?.isSome) + fates.countP (fun told => told.2 = .done) :=
  countP_split (fun fate => fate.state = .succeeded) (fun fate => fate.result?.isSome)
    (fun fate => fate = .done)
    (by rintro (_ | _ | _ | _ | _) <;> rfl) fates

/-- Each of the other states goes with one fate. -/
theorem countP_state {state : TaskState} {only : Fate}
    (alone : ∀ fate : Fate, fate.state = state ↔ fate = only) (fates : List (Task × Fate)) :
    fates.countP (fun told => told.2.state = state) = fates.countP (fun told => told.2 = only) :=
  List.countP_congr (fun told _ => by simp only [decide_eq_true_eq, alone])

/-- The report of tasks that have each met one fate balances. -/
theorem ofFates_balances (all : (fates.map Prod.fst).Perm tasks)
    (known : ∀ task ∈ tasks, task.id ≠ 0) (distinct : (tasks.map Task.id).Nodup) :
    (ofFates (TaskGroup.partition tasks).length fates).Balances tasks := by
  have once := ids_nodup all distinct
  have length : fates.length = tasks.length := by rw [← all.length_eq, List.length_map]
  have few := tasks_length_lt known distinct
  have counter (count : Nat) (less : count ≤ tasks.length) : (UInt64.ofNat count).toNat = count :=
    UInt64.toNat_ofNat_of_lt' (Nat.lt_of_le_of_lt less few)
  have counted (pick : Task × Fate → Bool) : (UInt64.ofNat (fates.countP pick)).toNat =
      fates.countP pick :=
    counter _ (length ▸ List.countP_le_length)
  have alone {state : TaskState} {only : Fate}
    (same : ∀ fate : Fate, fate.state = state ↔ fate = only) :
      (ofFates (TaskGroup.partition tasks).length fates).inState state =
        (UInt64.ofNat (fates.countP (fun told => told.2 = only))).toNat := by
    rw [inState_ofFates once, countP_state same, counted]
  constructor
  case groups => exact counter _ (TaskGroup.partition_splits tasks).length_le
  case executed =>
    simp only [ofFates, counted]
    exact countP_executed fates
  case total =>
    simp only [ofFates, counted, ← length]
    exact countP_all fates
  case ids =>
    refine ((statesOf_perm_map once).map Prod.fst).trans ?_
    have ids := all.map Task.id
    rwa [List.map_map] at ids ⊢
  case succeeded =>
    rw [inState_ofFates once, countP_succeeded]
    simp only [ofFates, counted]
  case failed => exact alone (by rintro (_ | _ | _ | _ | _) <;> simp [Fate.state])
  case requeued => exact alone (by rintro (_ | _ | _ | _ | _) <;> simp [Fate.state])
  case pending => exact alone (by rintro (_ | _ | _ | _ | _) <;> simp [Fate.state])
  case running =>
    rintro entry member
    obtain ⟨⟨_, fate⟩, _, rfl⟩ := (mem_statesOf once).mp member
    cases fate <;> simp [Fate.state]

end Fates
end RunReport

namespace Scheduler
variable {σ τ ε : Type} [TaskStore σ τ]

/-- Whatever the collaborators and the store do and however the groups fall to the workers and their
steps interleave, a run ends with a report and the report balances. -/
theorem report_balances (scheduler : Scheduler ε) (filter : Option (Filter ε)) (tasks : List Task)
    (known : ∀ task ∈ tasks, task.id ≠ 0) (distinct : (tasks.map Task.id).Nodup)
    (workers : 1 ≤ scheduler.workers) (decides : (scheduler.crewWith filter).Decides) (store : σ)
    (env : ε) :
    (∃ report, (scheduler.runList filter tasks store env).value = .ok report ∧
      report.Balances tasks) ∧
    ∀ drift history answer stored outside,
      scheduler.Runs filter drift tasks store env history answer stored outside →
      ∃ report, answer = .ok report ∧ report.Balances tasks := by
  have balances {drift history answer stored outside}
      (runs : scheduler.Runs filter drift tasks store env history answer stored outside) :
      ∃ report, answer = .ok report ∧ report.Balances tasks := by
    obtain ⟨answered, all⟩ := runs.outcome known distinct workers decides
    exact ⟨_, answered, RunReport.ofFates_balances all known distinct⟩
  obtain ⟨_, runs⟩ := runList_runs scheduler filter tasks store env
  exact ⟨balances runs, fun _ _ _ _ _ => balances⟩

theorem report_balances_trio : ∃ report,
    (pairScheduler.runList none trio ({ committed := { tasks := trio } } : MemoryStore) ()).value =
        .ok report ∧
      report.Balances trio ∧ report.groups = 2 ∧ report.succeeded = 3 := by
  obtain ⟨report, answer, balances⟩ := (report_balances pairScheduler none trio (by decide)
    (by decide) (by decide) (fun _ _ _ => nofun)
    ({ committed := { tasks := trio } } : MemoryStore) ()).1
  refine ⟨report, answer, balances, ?_⟩
  obtain rfl := Except.ok.inj answer
  exact ⟨by rfl, by rfl⟩

end Scheduler
end CodeAudit
