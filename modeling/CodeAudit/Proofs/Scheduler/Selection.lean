import CodeAudit.Proofs.Scheduler.Accounting
import CodeAudit.Proofs.Scheduler.Agreement
import CodeAudit.Proofs.Scheduler.Briefings

/-! Which tasks a run picks out. The filter is asked once about each task without a result, and what
it lets pass is what counts as executed. -/
namespace CodeAudit

namespace Act

/-- A question to the filter, and its answer. -/
def judged? : Act → Option (Task × Except Fault Bool)
  | judged task verdict => some (task, verdict)
  | _ => none

def accepted? : Act → Option Task
  | judged task (.ok true) => some task
  | _ => none

theorem judged_iff {act : Act} {task : Task} {verdict : Except Fault Bool} :
    act.judged? = some (task, verdict) ↔ act = .judged task verdict := by
  cases act <;> simp [judged?]

theorem accepted_iff {act : Act} {task : Task} :
    act.accepted? = some task ↔ act.judged? = some (task, .ok true) := by
  cases act with
  | judged _ verdict => rcases verdict with fault | _ | _ <;> simp [accepted?, judged?]
  | _ => simp [accepted?, judged?]

/-- Only the filter turns a task down. -/
theorem fate_turnedDown {act : Act} {task : Task} :
    act.fate? = some (task, .turnedDown) ↔ act.judged? = some (task, .ok false) := by
  cases act with
  | judged _ verdict => rcases verdict with fault | _ | _ <;> simp [fate?, judged?]
  | settled _ state => cases state <;> simp [fate?, judged?]
  | _ => simp [fate?, judged?]

end Act

namespace History

/-- The questions to the filter, with its answers. -/
def judged (history : History) : List (Task × Except Fault Bool) :=
  history.filterMap (fun (_, act) => act.judged?)

def accepted (history : History) : List Task := history.filterMap (fun (_, act) => act.accepted?)

variable {history : History} {task : Task} {verdict : Except Fault Bool}

@[simp] theorem judged_append (history later : History) :
    judged (history ++ later) = judged history ++ judged later := List.filterMap_append

theorem mem_judged : (task, verdict) ∈ history.judged ↔
    ∃ i, (i, .judged task verdict) ∈ history := by
  simp [judged, List.mem_filterMap, Act.judged_iff]

theorem mem_accepted : task ∈ history.accepted ↔ (task, .ok true) ∈ history.judged := by
  simp [accepted, judged, List.mem_filterMap, Act.accepted_iff]

theorem mem_turnedDown : (task, .turnedDown) ∈ history.fates ↔
    (task, .ok false) ∈ history.judged := by
  simp [fates, judged, List.mem_filterMap, Act.fate_turnedDown]

theorem filterMap_sublist {α β : Type} {narrow wide : α → Option β}
    (within : ∀ entry found, narrow entry = some found → wide entry = some found) (list : List α) :
    (list.filterMap narrow).Sublist (list.filterMap wide) := by
  induction list with
  | nil => exact .slnil
  | cons entry list ih =>
    cases picked : narrow entry with
    | none =>
      rw [List.filterMap_cons_none picked]
      exact ih.trans ((List.sublist_cons_self entry list).filterMap wide)
    | some found =>
      rw [List.filterMap_cons_some picked, List.filterMap_cons_some (within entry found picked)]
      exact ih.cons_cons found

theorem judged_sublist (history : History) :
    (history.judged.map Prod.fst).Sublist history.decided := by
  rw [judged, decided, List.map_filterMap]
  refine filterMap_sublist (fun entry found picked => ?_) history
  obtain ⟨_, act⟩ := entry
  cases act <;> simp_all [Act.judged?, Act.decided?]

theorem accepted_sublist (history : History) :
    history.accepted.Sublist (history.judged.map Prod.fst) := by
  rw [judged, accepted, List.map_filterMap]
  refine filterMap_sublist (fun entry found picked => ?_) history
  exact congrArg (Option.map Prod.fst) (Act.accepted_iff.mp picked)

/-- A task that has been looked at had a result or was put to the filter. -/
theorem mem_decided : task ∈ history.decided ↔
    (∃ i, (i, .skipped task) ∈ history) ∨ ∃ verdict, (task, verdict) ∈ history.judged := by
  simp only [mem_judged]
  constructor
  · intro looked
    obtain ⟨⟨i, act⟩, member, found⟩ := List.mem_filterMap.mp looked
    cases act with
    | skipped other => exact .inl ⟨i, Option.some.inj found ▸ member⟩
    | judged other verdict => exact .inr ⟨verdict, i, Option.some.inj found ▸ member⟩
    | _ => contradiction
  · rintro (⟨i, member⟩ | ⟨verdict, i, member⟩)
    all_goals exact List.mem_filterMap.mpr ⟨_, member, rfl⟩

end History

namespace WorkerPool
variable {σ τ ε : Type} [TaskStore σ τ] {crew : Crew ε} {tasks : List Task}
  {groups : List TaskGroup} {count : Nat} {history : History} {pool : WorkerPool σ ε} {task : Task}
  {verdict : Except Fault Bool}

/-- The filter is asked about a task once at most. -/
theorem Stands.judged_once (stands : Stands crew groups count history pool)
    (splits : TaskGroup.Splits tasks groups) (distinct : tasks.Nodup) :
    (history.judged.map Prod.fst).Nodup :=
  history.judged_sublist.nodup (stands.looked_once splits distinct)

/-- Only tasks without a result are put to the filter, and the answer is the filter's. -/
theorem Stands.judged (stands : Stands crew groups count history pool)
    (member : (task, verdict) ∈ history.judged) :
    task.isDone = false ∧ ∃ env, (crew.judge task env).1 = verdict := by
  obtain ⟨i, member⟩ := History.mem_judged.mp member
  obtain ⟨before, later, split⟩ := List.append_of_mem member
  exact stands.follows split

/-- A task put to the filter is executed just if it is let pass. -/
theorem Stands.executed (stands : Stands crew groups count history pool)
    (splits : TaskGroup.Splits tasks groups) (distinct : tasks.Nodup) (decides : crew.Decides)
    {fate : Fate} (met : (task, fate) ∈ history.fates) (put : (task, verdict) ∈ history.judged) :
    fate.isExecuted = true ↔ verdict = .ok true := by
  have fates := stands.fates_once splits distinct
  have verdicts := stands.judged_once splits distinct
  constructor
  · intro executed
    rcases verdict with fault | _ | _
    · obtain ⟨_, env, failed⟩ := stands.judged put
      exact absurd failed (decides _ _ _)
    · have sealed := History.mem_turnedDown.mpr put
      rw [(Prod.mk.inj (List.inj_on_of_nodup_map fates met sealed rfl)).2] at executed
      contradiction
    · rfl
  · rintro rfl
    cases fate with
    | done => simpa [(stands.judged put).1] using (stands.fate_done met).mp rfl
    | turnedDown => cases List.inj_on_of_nodup_map verdicts put (History.mem_turnedDown.mp met) rfl
    | _ => rfl

/-- The executor is called for what the filter has let pass. -/
theorem Stands.called_accepted (stands : Stands crew groups count history pool)
    (called : task ∈ history.called) :
    task ∈ history.accepted := by
  obtain ⟨⟨i, act⟩, member, found⟩ := List.mem_filterMap.mp called
  cases act with
  | called other summary =>
    obtain rfl := Option.some.inj found
    obtain ⟨before, later, split⟩ := List.append_of_mem member
    obtain ⟨_, passed, _, _⟩ := stands.follows split
    have judged : (i, .judged other (.ok true)) ∈ history :=
      split ▸ List.mem_append_left _ (History.mem_own.mp passed)
    exact History.mem_accepted.mpr (History.mem_judged.mpr ⟨i, judged⟩)
  | _ => contradiction

end WorkerPool

namespace Scheduler
variable {σ τ ε : Type} [TaskStore σ τ] {scheduler : Scheduler ε} {filter : Option (Filter ε)}
  {tasks : List Task} {store : σ} {env : ε} {drift : σ → σ → Prop} {history : History}
  {answer : Except Fault RunReport} {stored : σ} {outside : ε} (known : ∀ task ∈ tasks, task.id ≠ 0)
  (distinct : (tasks.map Task.id).Nodup) (workers : 1 ≤ scheduler.workers)
  (decides : (scheduler.crewWith filter).Decides)
include known distinct workers decides

/-- The tasks put to the filter are those without a result. -/
theorem Runs.judged_perm
    (runs : Runs scheduler filter drift tasks store env history answer stored outside) :
    (history.judged.map Prod.fst).Perm (tasks.filter (fun task => !task.isDone)) := by
  have splits := TaskGroup.partition_splits tasks
  have once : tasks.Nodup := .of_map _ distinct
  have complete := runs.complete known once workers decides
  obtain ⟨_, path, _⟩ := runs.reached
  refine (List.perm_ext_iff_of_nodup (path.stands.judged_once splits once) (once.filter _)).mpr
    (fun task => ?_)
  simp only [List.mem_map, List.mem_filter, Bool.not_eq_true', Prod.exists, exists_and_right,
    exists_eq_right]
  constructor
  · rintro ⟨verdict, member⟩
    refine ⟨?_, (path.stands.judged member).1⟩
    obtain ⟨i, member⟩ := History.mem_judged.mp member
    exact path.stands.listed splits member rfl
  · rintro ⟨listed, undone⟩
    obtain ⟨group, among, inside⟩ := splits.mem.mp listed
    rw [← complete.decided group among] at inside
    rcases History.mem_decided.mp (List.mem_of_mem_filter inside) with ⟨i, skipped⟩ | judged
    · obtain ⟨before, later, split⟩ := List.append_of_mem skipped
      have isDone : task.isDone = true := path.stands.follows split
      simp [isDone] at undone
    · exact judged

/-- The tasks with the fate of being executed are those that the filter lets pass. -/
theorem Runs.accepted_perm
    (runs : Runs scheduler filter drift tasks store env history answer stored outside) :
    history.accepted.Perm
      ((history.fates.filter (fun told => told.2.isExecuted)).map Prod.fst) := by
  have splits := TaskGroup.partition_splits tasks
  have once : tasks.Nodup := .of_map _ distinct
  have all := (runs.outcome known distinct workers decides).2
  have judged := runs.judged_perm known distinct workers decides
  obtain ⟨_, path, _⟩ := runs.reached
  have stands := path.stands
  refine (List.perm_ext_iff_of_nodup
    (history.accepted_sublist.nodup (stands.judged_once splits once))
    ((List.filter_sublist.map _).nodup (stands.fates_once splits once))).mpr (fun task => ?_)
  simp only [History.mem_accepted, List.mem_map, List.mem_filter, Prod.exists, exists_and_right,
    exists_eq_right]
  constructor
  · intro passed
    have listed : task ∈ tasks :=
      List.mem_of_mem_filter (judged.mem_iff.mp (List.mem_map_of_mem passed))
    obtain ⟨⟨_, fate⟩, met, rfl⟩ := List.mem_map.mp (all.mem_iff.mpr listed)
    exact ⟨fate, met, (stands.executed splits once decides met passed).mpr rfl⟩
  · rintro ⟨fate, met, executed⟩
    have undone : task.isDone = false := by
      refine Bool.eq_false_iff.mpr (fun isDone => ?_)
      rw [(stands.fate_done met).mpr isDone] at executed
      contradiction
    have member : task ∈ tasks.filter (fun task => !task.isDone) :=
      List.mem_filter.mpr ⟨stands.fates_known splits met, by simp [undone]⟩
    obtain ⟨⟨_, verdict⟩, put, rfl⟩ := List.mem_map.mp (judged.mem_iff.mpr member)
    exact (stands.executed splits once decides met put).mp executed ▸ put

/-- What the report counts as executed is what the filter lets pass. -/
theorem Runs.executed_accepted {report : RunReport}
    (runs : Runs scheduler filter drift tasks store env history (.ok report) stored outside) :
    report.executed.toNat = history.accepted.length := by
  obtain ⟨answered, all⟩ := runs.outcome known distinct workers decides
  have accepted := (runs.accepted_perm known distinct workers decides).length_eq
  rw [List.length_map, ← List.countP_eq_length_filter] at accepted
  have length : history.fates.length = tasks.length := by rw [← all.length_eq, List.length_map]
  have less : history.accepted.length ≤ tasks.length := accepted ▸ length ▸ List.countP_le_length
  obtain rfl := Except.ok.inj answered
  rw [RunReport.ofFates, ← accepted]
  exact UInt64.toNat_ofNat_of_lt' (Nat.lt_of_le_of_lt less (tasks_length_lt known distinct))

end Scheduler
end CodeAudit
