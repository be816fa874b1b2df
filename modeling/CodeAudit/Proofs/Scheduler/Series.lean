import CodeAudit.Proofs.Scheduler.Selection

/-! Runs one after another over one store. What has a result keeps it and is left alone, so that
each run takes up just what those before it have left without one. -/
namespace CodeAudit

open TaskStore

/-- A row after a run holds the result of its task's success or is as it was. -/
theorem amended_cases {keep : Text → Text} {rows : List Task} {fates : List (Task × Fate)}
    {row : Task} (distinct : (rows.map Task.id).Nodup) (known : ∀ told ∈ fates, told.1 ∈ rows)
    (once : (fates.map (·.1.id)).Nodup) (inside : row ∈ rows) :
    (∃ result, (row, .succeeded result) ∈ fates ∧
      amended keep fates row = { row with result := keep result }) ∨
      (∀ result, (row, .succeeded result) ∉ fates) ∧ amended keep fates row = row := by
  by_cases met : ∃ result, (row, .succeeded result) ∈ fates
  · obtain ⟨result, met⟩ := met
    exact .inl ⟨result, met, amended_met once met rfl⟩
  · have unmet := not_exists.mp met
    refine .inr ⟨unmet, amended_unmet (fun task result found same => ?_)⟩
    obtain rfl := List.inj_on_of_nodup_map distinct (known _ found) inside same
    exact unmet result found

namespace WorkerPool
variable {σ τ ε : Type} [TaskStore σ τ] {crew : Crew ε} {before tasks : List Task}
  {groups : List TaskGroup} {count : Nat} {history sofar rest : History}
  {pool former : WorkerPool σ ε} {row : Task} {keep : Text → Text}

/-- A result that was there before a run is there during it. -/
theorem Stands.keeps (keep : Text → Text) (stands : Stands crew groups count history pool)
    (splits : TaskGroup.Splits tasks groups) (distinct : (before.map Task.id).Nodup)
    (listed : tasks.Sublist before) (inside : row ∈ before) (isDone : row.isDone = true) :
    amended keep history.fates row = row := by
  have known (told) (met : told ∈ history.fates) : told.1 ∈ before :=
    listed.subset (stands.fates_known splits met)
  have once := stands.fate_ids_once splits ((listed.map _).nodup distinct)
  rcases amended_cases distinct known once inside with ⟨result, met, _⟩ | ⟨_, same⟩
  · cases (stands.fate_done met).mpr isDone
  · exact same

/-- From the moment that a row has a result it keeps it, and its task is not called for any more. -/
theorem Stands.lasts (stands : Stands crew groups count (sofar ++ rest) pool)
    (earlier : Stands crew groups count sofar former) (splits : TaskGroup.Splits tasks groups)
    (distinct : (before.map Task.id).Nodup) (listed : tasks.Sublist before) (inside : row ∈ before)
    (isDone : (amended keep sofar.fates row).isDone = true) :
    amended keep (sofar ++ rest).fates row = amended keep sofar.fates row ∧
      ∀ task ∈ rest.called, task.id ≠ row.id := by
  have ids : (tasks.map Task.id).Nodup := (listed.map _).nodup distinct
  have known (told) (met : told ∈ sofar.fates) : told.1 ∈ before :=
    listed.subset (earlier.fates_known splits met)
  have own (task : Task) (called : task ∈ rest.called) (same : task.id = row.id) : task = row := by
    obtain ⟨⟨i, act⟩, member, found⟩ := List.mem_filterMap.mp called
    have among := stands.listed splits (List.mem_append_right _ member) (Act.task_of_called found)
    exact List.inj_on_of_nodup_map distinct (listed.subset among) inside same
  rcases amended_cases distinct known (earlier.fate_ids_once splits ids)
    inside with ⟨result, met, now⟩ | ⟨_, now⟩
  · have still : (row, .succeeded result) ∈ (sofar ++ rest).fates := by
      rw [History.fates_append]
      exact List.mem_append_left _ met
    refine ⟨(amended_met (stands.fate_ids_once splits ids) still rfl).trans now.symm,
      fun task called same => ?_⟩
    obtain rfl := own task called same
    obtain ⟨_, i, summary, env, first, _⟩ := earlier.answered met
    have calls := stands.called_once splits (.of_map _ ids)
    rw [History.called_append] at calls
    exact (List.nodup_append.mp calls).2.2 task (List.mem_filterMap.mpr ⟨_, first, rfl⟩) task
      called rfl
  · rw [now] at isDone ⊢
    refine ⟨stands.keeps keep splits distinct listed inside isDone, fun task called same => ?_⟩
    obtain rfl := own task called same
    have passed : task ∈ (sofar ++ rest).called := by
      rw [History.called_append]
      exact List.mem_append_right _ called
    have undone := (stands.judged (History.mem_accepted.mp (stands.called_accepted passed))).1
    rw [isDone] at undone
    contradiction

end WorkerPool

namespace Scheduler

section Begins
variable {σ τ ε : Type} [TaskStore σ τ] [Lawful σ] {scheduler : Scheduler ε}
  {filter : Option (Filter ε)} {drift : σ → σ → Prop} {project : Text} {store stored : σ}
  {env outside : ε} {history : History} {answer : Except Fault RunReport}

/-- A run over a project is refused at once, or it is a run over the tasks that it has read. -/
theorem ProjectRuns.begins
    (runs : ProjectRuns scheduler filter drift project store env history answer stored outside) :
    let listed := (rows store).filter (fun task => task.projectId = keep σ project)
    ((∃ fault, answer = .error fault) ∧ history = [] ∧ stored = store ∧
      (¬Fit store ∨ ∃ task ∈ listed, task.id = 0)) ∨
      (∀ task ∈ listed, task.id ≠ 0) ∧ Runs scheduler filter drift listed store env history answer
        stored outside := by
  intro listed
  obtain ⟨state, value⟩ := projectTasks_reads store project
  cases runs with
  | unread refused =>
    rcases value with whole | ⟨unfit, _⟩
    · rw [whole] at refused
      contradiction
    · exact .inl ⟨⟨_, rfl⟩, rfl, state, .inl unfit⟩
  | @read tasks _ _ _ _ found runs =>
    rcases value with whole | ⟨_, fault, refused⟩
    · obtain rfl : listed = tasks := Except.ok.inj (whole.symm.trans found)
      rw [state] at runs
      cases unstored : listed.find? (fun task => task.id = 0) with
      | none => exact .inr ⟨by simpa using unstored, runs⟩
      | some task =>
        have zero : ∃ task ∈ listed, task.id = 0 :=
          ⟨task, List.mem_of_find?_eq_some unstored, by simpa using List.find?_some unstored⟩
        cases runs with
        | refused _ => exact .inl ⟨⟨_, rfl⟩, rfl, rfl, .inr zero⟩
        | nothing fine _ | ended fine _ _ _ =>
          rw [unstored] at fine
          contradiction
    · rw [refused] at found
      contradiction

end Begins

/-- A run over the tasks of a project, and what it came to. -/
structure ProjectRun (backend : Backend) (ε : Type) where
  scheduler : Scheduler ε
  filter : Option (Filter ε)
  project : Text
  before : Unreliable backend.Store
  env : ε
  history : History
  answer : Except Fault RunReport
  after : Unreliable backend.Store
  outside : ε

namespace ProjectRun
variable {backend : Backend} {ε : Type}

abbrev crew (run : ProjectRun backend ε) : Crew ε := run.scheduler.crewWith run.filter

def listed (run : ProjectRun backend ε) : List Task :=
  (rows run.before.store).filter (fun task => task.projectId = keep backend.Store run.project)

/-- The run may have come to such a pool after such acts. -/
def Reaches (run : ProjectRun backend ε) (sofar : History)
    (pool : WorkerPool (Unreliable backend.Store) ε) : Prop :=
  WorkerPool.Reaches run.crew Unreliable.Drifts
    (run.scheduler.pool (TaskGroup.partition run.listed) run.before run.env) sofar pool

/-- The run is one by some interleaving, with steps of the store failing at will. -/
structure Made (run : ProjectRun backend ε) : Prop where
  runs : run.scheduler.ProjectRuns run.filter Unreliable.Drifts run.project run.before run.env
    run.history run.answer
    run.after run.outside
  workers : 1 ≤ run.scheduler.workers
  decides : run.crew.Decides
  /-- Answers reach the table as they are. -/
  plain : backend = .table → ∀ task briefing env result,
    (run.scheduler.crew.executor task briefing env).value.answer = .ok result → 0 ∉ result

/-- Runs made one after another, each over the store that the one before has left. -/
inductive Series : backend.Store → List (ProjectRun backend ε) → Prop where
  | nil : Series store []
  | cons : run.Made → run.before.store = store → Series run.after.store later →
      Series store (run :: later)

variable {run next : ProjectRun backend ε} {runs : List (ProjectRun backend ε)}
  {store : backend.Store} {sofar rest : History} {pool : WorkerPool (Unreliable backend.Store) ε}
  {row : Task} {project : Text} {report : RunReport}

theorem Made.begins (made : run.Made) : ((∃ fault, run.answer = .error fault) ∧ run.history = [] ∧
      run.after = run.before ∧ (¬Fit run.before ∨ ∃ task ∈ run.listed, task.id = 0)) ∨
    (∀ task ∈ run.listed, task.id ≠ 0) ∧
      run.scheduler.Runs run.filter Unreliable.Drifts run.listed run.before run.env
      run.history run.answer run.after run.outside :=
  made.runs.begins

/-- A run that reports is a run over the tasks that it has read. -/
theorem Made.ran (made : run.Made) (answer : run.answer = .ok report) :
    (∀ task ∈ run.listed, task.id ≠ 0) ∧
    run.scheduler.Runs run.filter Unreliable.Drifts run.listed run.before run.env run.history
      (.ok report) run.after
      run.outside := by
  rcases made.begins with ⟨⟨fault, refused⟩, _⟩ | ⟨known, runs⟩
  · rw [answer] at refused
    contradiction
  · exact ⟨known, answer ▸ runs⟩

theorem Made.ends (made : run.Made) : ∃ pool, run.Reaches run.history pool ∧
    pool.store = run.after := by
  rcases made.begins with ⟨_, idle, kept, _⟩ | ⟨_, runs⟩
  · exact ⟨_, idle.symm ▸ WorkerPool.Reaches.refl, kept.symm⟩
  · exact runs.reached

theorem starts (run : ProjectRun backend ε) :
    ∃ pool, run.Reaches [] pool ∧ pool.store = run.before := ⟨_, WorkerPool.Reaches.refl, rfl⟩

theorem Reaches.stands (path : run.Reaches sofar pool) :
    WorkerPool.Stands run.crew (TaskGroup.partition run.listed)
    (min run.scheduler.workers.toNat (TaskGroup.partition run.listed).length) sofar pool :=
  WorkerPool.Reaches.stands path

theorem Reaches.written (path : run.Reaches sofar pool) : rows pool.store.store =
    (rows run.before.store).map (amended (keep backend.Store) sofar.fates) :=
  WorkerPool.Reaches.rows_amended path (fun _ _ => Unreliable.rows_drifts)

theorem Made.written (made : run.Made) : rows run.after.store =
    (rows run.before.store).map (amended (keep backend.Store) run.history.fates) := by
  obtain ⟨pool, path, stored⟩ := made.ends
  rw [← stored, path.written]

theorem Made.ids (made : run.Made) :
    (rows run.after.store).map Task.id = (rows run.before.store).map Task.id := by
  rw [made.written, List.map_map]
  exact List.map_congr_left (fun row _ => amended_id _ _ row)

/-- Each row after a run comes from one of before. -/
theorem Made.origin (made : run.Made) (inside : row ∈ rows run.after.store) :
    ∃ old ∈ rows run.before.store,
    old.projectId = row.projectId ∧ row = amended (keep backend.Store) run.history.fates old := by
  rw [made.written] at inside
  obtain ⟨old, there, rfl⟩ := List.mem_map.mp inside
  obtain ⟨result, same⟩ := amended_frame (keep backend.Store) run.history.fates old
  exact ⟨old, there, by rw [same], rfl⟩

/-! ### One run -/

def Exhausted (store : backend.Store) (project : Text) : Prop :=
  ∀ row ∈ rows store, row.projectId = keep backend.Store project → row.isDone = true

/-- Nobody is asked about anything. -/
structure Idle (run : ProjectRun backend ε) : Prop where
  judged : run.history.judged = []
  called : run.history.called = []
  executed : ∀ report, run.answer = .ok report → report.executed = 0

section Run
variable (made : run.Made) (distinct : ((rows run.before.store).map Task.id).Nodup)
include distinct

theorem listed_ids : (run.listed.map Task.id).Nodup := (List.filter_sublist.map _).nodup distinct

include made

theorem Made.keeps (inside : row ∈ rows run.before.store) (isDone : row.isDone = true) :
    amended (keep backend.Store) run.history.fates row = row := by
  obtain ⟨_, path, _⟩ := made.ends
  exact path.stands.keeps _ (TaskGroup.partition_splits _) distinct List.filter_sublist
    inside isDone

/-- A row that has a result at some moment of a run has it at the end, and its task is not called
for any more. -/
theorem Made.lasts (split : run.history = sofar ++ rest) (path : run.Reaches sofar pool)
    (inside : row ∈ rows pool.store.store) (isDone : row.isDone = true) :
    row ∈ rows run.after.store ∧ ∀ task ∈ rest.called, task.id ≠ row.id := by
  have splits := TaskGroup.partition_splits run.listed
  obtain ⟨_, whole, _⟩ := made.ends
  rw [path.written] at inside
  obtain ⟨old, there, rfl⟩ := List.mem_map.mp inside
  obtain ⟨same, uncalled⟩ :=
    (split ▸ whole.stands).lasts path.stands splits distinct List.filter_sublist there isDone
  rw [amended_id, made.written, split, ← same]
  exact ⟨List.mem_map_of_mem there, uncalled⟩

theorem Made.exhausted (none : Exhausted run.before.store project) :
    Exhausted run.after.store project := by
  intro row inside own
  obtain ⟨old, there, same, rfl⟩ := made.origin inside
  have isDone := none old there (same.trans own)
  rwa [made.keeps distinct there isDone]

theorem Made.idle (none : Exhausted run.before.store run.project) : run.Idle := by
  rcases made.begins with ⟨⟨fault, refused⟩, nothing, _, _⟩ | ⟨known, runs⟩
  · constructor
    case judged => rw [nothing]; rfl
    case called => rw [nothing]; rfl
    case executed =>
      rw [refused]
      nofun
  · have ids := listed_ids distinct
    have undone : run.listed.filter (fun task => !task.isDone) = [] := by
      refine List.filter_eq_nil_iff.mpr (fun task listed => ?_)
      obtain ⟨inside, own⟩ := List.mem_filter.mp listed
      simp [none task inside (of_decide_eq_true own)]
    have judged : run.history.judged.map Prod.fst = [] :=
      List.perm_nil.mp (undone ▸ runs.judged_perm known ids made.workers made.decides)
    have accepted : run.history.accepted = [] :=
      List.sublist_nil.mp (judged ▸ run.history.accepted_sublist)
    obtain ⟨_, path, _⟩ := made.ends
    constructor
    case judged => exact List.map_eq_nil_iff.mp judged
    case called =>
      refine List.eq_nil_iff_forall_not_mem.mpr (fun task called => ?_)
      have passed := path.stands.called_accepted called
      rw [accepted] at passed
      contradiction
    case executed =>
      intro report answer
      have executed := (made.ran answer).2.executed_accepted known ids made.workers made.decides
      rw [accepted, List.length_nil] at executed
      exact UInt64.toNat.inj executed

/-- A run in which every task has succeeded leaves none without a result. -/
theorem Made.succeeds (answer : run.answer = .ok report)
    (all : ∀ entry ∈ report.states, entry.2 = .succeeded) :
    Exhausted run.after.store run.project := by
  intro row inside own
  obtain ⟨known, runs⟩ := made.ran answer
  obtain ⟨answered, every⟩ := runs.outcome known (listed_ids distinct) made.workers made.decides
  obtain rfl := Except.ok.inj answered
  have once := RunReport.ids_nodup every (listed_ids distinct)
  obtain ⟨_, path, _⟩ := made.ends
  obtain ⟨old, there, same, rfl⟩ := made.origin inside
  have listed : old ∈ run.listed := List.mem_filter.mpr ⟨there, decide_eq_true (same.trans own)⟩
  obtain ⟨⟨_, fate⟩, met, rfl⟩ := List.mem_map.mp (every.mem_iff.mpr listed)
  have succeeded := all _ ((WorkerPool.states_fate once met _).mpr rfl)
  cases fate with
  | done =>
    have isDone := (path.stands.fate_done met).mp rfl
    rwa [made.keeps distinct there isDone]
  | succeeded result =>
    obtain ⟨nonempty, _, _, _, _, _, _, answer⟩ := path.stands.answered met
    have plain : keep backend.Store result = result :=
      Backend.keep_plain (fun isTable => made.plain isTable _ _ _ _ answer)
    rw [amended_met once met rfl, plain]
    simpa [Task.isDone] using nonempty
  | _ => cases succeeded

end Run

/-! ### Run after run -/

/-- As ids are unique, a row is the only one with its id. -/
theorem filter_id {rows : List Task} (distinct : (rows.map Task.id).Nodup) (inside : row ∈ rows) :
    rows.filter (fun now => now.id = row.id) = [row] := by
  have once : rows.Nodup := .of_map _ distinct
  refine List.perm_singleton.mp
    ((List.perm_ext_iff_of_nodup (once.filter _) (List.nodup_singleton row)).mpr ?_)
  intro now
  simp only [List.mem_filter, decide_eq_true_eq, List.mem_singleton]
  constructor
  · rintro ⟨member, same⟩
    exact List.inj_on_of_nodup_map distinct member inside same
  · rintro rfl
    exact ⟨inside, rfl⟩

/-- A row with a result stays through all later runs. -/
theorem Series.lasts (series : Series store runs) (distinct : ((rows store).map Task.id).Nodup)
    (inside : row ∈ rows store) (isDone : row.isDone = true) :
    ∀ next ∈ runs, (rows next.after.store).filter (fun now => now.id = row.id) = [row] ∧
      ∀ task ∈ next.history.called, task.id ≠ row.id := by
  induction series with
  | nil => exact fun _ member => absurd member List.not_mem_nil
  | @cons _ later run made start _ ih =>
    subst start
    obtain ⟨pool, begun, before⟩ := run.starts
    obtain ⟨stays, uncalled⟩ :=
      made.lasts distinct (List.nil_append _).symm begun (before ▸ inside) isDone
    have still : ((rows run.after.store).map Task.id).Nodup := made.ids ▸ distinct
    intro next member
    rcases List.mem_cons.mp member with rfl | member
    · exact ⟨filter_id still stays, uncalled⟩
    · exact ih still stays next member

theorem Series.idle (series : Series store runs) (distinct : ((rows store).map Task.id).Nodup)
    (none : Exhausted store project) : ∀ next ∈ runs, next.project = project → next.Idle := by
  induction series with
  | nil => exact fun _ member => absurd member List.not_mem_nil
  | @cons _ later run made start _ ih =>
    subst start
    intro next member same
    rcases List.mem_cons.mp member with rfl | member
    · exact made.idle distinct (same ▸ none)
    · exact ih (made.ids ▸ distinct) (made.exhausted distinct none) next member same

structure Final (run : ProjectRun backend ε) (later : List (ProjectRun backend ε)) : Prop where
  /-- A row with a result, at any moment of the run, stays as it is, and its task is not called for
  again. -/
  lasts : ∀ sofar rest pool, run.history = sofar ++ rest → run.Reaches sofar pool →
    ∀ row ∈ rows pool.store.store, row.isDone = true →
      (∀ next ∈ run :: later, (rows next.after.store).filter (fun now => now.id = row.id) = [row]) ∧
      (∀ task ∈ rest.called, task.id ≠ row.id) ∧
      ∀ next ∈ later, ∀ task ∈ next.history.called, task.id ≠ row.id
  refused : ∀ fault, run.answer = .error fault →
    run.history = [] ∧ run.after = run.before ∧ (¬Fit run.before ∨ ∃ task ∈ run.listed, task.id = 0)
  judged : ∀ report, run.answer = .ok report →
    (run.history.judged.map Prod.fst).Perm (run.listed.filter (fun task => !task.isDone)) ∧
    ∀ told ∈ run.history.judged, ∃ env, (run.crew.judge told.1 env).1 = told.2
  executed : ∀ report, run.answer = .ok report →
    report.executed.toNat = run.history.accepted.length ∧
    ∀ task ∈ run.history.called, task ∈ run.history.accepted
  /-- Once every task has succeeded there is nothing left to do. -/
  exhausts : ∀ report, run.answer = .ok report → (∀ entry ∈ report.states, entry.2 = .succeeded) →
    ∀ next ∈ later, next.project = run.project → next.Idle

theorem Made.final {later : List (ProjectRun backend ε)} (made : run.Made)
    (distinct : ((rows run.before.store).map Task.id).Nodup)
    (series : Series run.after.store later) :
    run.Final later := by
  have still : ((rows run.after.store).map Task.id).Nodup := made.ids ▸ distinct
  have ids := listed_ids distinct
  obtain ⟨_, path, _⟩ := made.ends
  constructor
  case lasts =>
    intro sofar rest pool split reached row inside isDone
    obtain ⟨stays, uncalled⟩ := made.lasts distinct split reached inside isDone
    have lasts := series.lasts still stays isDone
    refine ⟨fun next member => ?_, uncalled, fun next member => (lasts next member).2⟩
    rcases List.mem_cons.mp member with rfl | member
    · exact filter_id still stays
    · exact (lasts next member).1
  case refused =>
    intro fault refused
    rcases made.begins with ⟨_, idle, kept, cause⟩ | ⟨known, runs⟩
    · exact ⟨idle, kept, cause⟩
    · obtain ⟨answered, _⟩ := runs.outcome known ids made.workers made.decides
      rw [refused] at answered
      contradiction
  case judged =>
    intro report answer
    obtain ⟨known, runs⟩ := made.ran answer
    exact ⟨runs.judged_perm known ids made.workers made.decides, fun told member =>
      (path.stands.judged member).2⟩
  case executed =>
    intro report answer
    obtain ⟨known, runs⟩ := made.ran answer
    exact ⟨runs.executed_accepted known ids made.workers made.decides, fun _ =>
      path.stands.called_accepted⟩
  case exhausts =>
    exact fun report answer all => series.idle still (made.succeeds distinct answer all)

end ProjectRun
end Scheduler
end CodeAudit
