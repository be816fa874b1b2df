import CodeAudit.Proofs.Scheduler.Agreement

/-! What a task in hand is told of its finished siblings. While a group is in the hands of a worker
nobody else writes its rows, so that what is read of them is settled by the tasks before the one in
hand. -/
namespace CodeAudit

open TaskStore

def preceding (tasks : List Task) (task : Task) : List Task := tasks.takeWhile (· ≠ task)

/-- The rows of a task's group that have a result, but for its own. -/
def Task.siblings (task : Task) (rows : List Task) : List Task :=
  rows.filter (fun row => row.groupId.isSome ∧ row.groupId = task.groupId ∧ row.isDone ∧
    row.id ≠ task.id)

/-- The siblings that had a result before, and those before the task that have got it since. -/
def finishedBefore (keep : Text → Text) (rows tasks : List Task) (fates : List (Task × Fate))
    (task : Task) :
    List Task :=
  task.siblings (rows.map (amended keep (fates.filter (fun told => told.1 ∈ preceding tasks task))))

section Lists
variable {tasks rows : List Task} {task : Task} {keep : Text → Text}
  {now later : List (Task × Fate)}

theorem preceding_filter (pick : Task → Bool) (picked : pick task = true) :
    preceding (tasks.filter pick) task = (preceding tasks task).filter pick := by
  induction tasks with
  | nil => rfl
  | cons first rest ih =>
    simp only [preceding, ne_eq, decide_not] at ih ⊢
    by_cases same : first = task
    · subst same
      simp [picked]
    · cases kept : pick first <;> simp [kept, same, ih]

theorem preceding_split {before after : List Task} (fresh : task ∉ before) :
    preceding (before ++ task :: after) task = before := by
  unfold preceding
  rw [List.takeWhile_append_of_pos]
  · simp
  · intro other member
    simpa using fun same : other = task => fresh (same ▸ member)

theorem filter_map_congr {first second : Task → Task} {pick : Task → Bool}
    (same : ∀ row ∈ rows, first row = second row ∨
      (pick (first row) = false ∧ pick (second row) = false)) :
    (rows.map first).filter pick = (rows.map second).filter pick := by
  induction rows with
  | nil => rfl
  | cons row rows ih =>
    have rest := ih (fun other member => same other (List.mem_cons_of_mem _ member))
    rcases same row List.mem_cons_self with alike | ⟨left, right⟩
    · simp only [List.map_cons, List.filter_cons, alike, rest]
    · simp only [List.map_cons, List.filter_cons, left, right, rest, Bool.false_eq_true, if_false]

/-- Rows that have met the same successes are the same. -/
theorem amended_congr {row : Task} (left : (now.map (·.1.id)).Nodup)
    (right : (later.map (·.1.id)).Nodup)
    (same : ∀ task result, task.id = row.id →
      ((task, .succeeded result) ∈ now ↔ (task, .succeeded result) ∈ later)) :
    amended keep now row = amended keep later row := by
  by_cases met : ∃ task result, (task, .succeeded result) ∈ now ∧ task.id = row.id
  · obtain ⟨task, result, member, alike⟩ := met
    rw [amended_met left member alike, amended_met right ((same task result alike).mp member) alike]
  · have unmet : ∀ task result, (task, .succeeded result) ∈ now → task.id ≠ row.id :=
      fun task result member alike => met ⟨task, result, member, alike⟩
    rw [amended_unmet unmet, amended_unmet]
    exact fun task result member alike =>
      unmet task result ((same task result alike).mpr member) alike

theorem siblings_group {group : Text} (grouped : task.groupId = some group) :
    (rows.filter (fun row => row.groupId = some group ∧ row.isDone)).filter
      (fun row => row.id ≠ task.id) =
      task.siblings rows := by
  rw [List.filter_filter, Task.siblings]
  refine List.filter_congr (fun row _ => ?_)
  rw [← Bool.decide_and, decide_eq_decide, grouped]
  constructor
  · rintro ⟨other, own, done⟩
    exact ⟨own ▸ rfl, own, done, other⟩
  · rintro ⟨_, own, done, other⟩
    exact ⟨other, own, done⟩

theorem siblings_none (grouped : task.groupId = none) : task.siblings rows = [] := by
  refine List.filter_eq_nil_iff.mpr (fun row _ picked => ?_)
  obtain ⟨some, same, _⟩ := of_decide_eq_true picked
  rw [same, grouped] at some
  contradiction

/-- What is read of a group while a task is in hand, seen from a later time. -/
theorem read_finished (distinct : (rows.map Task.id).Nodup) (known : ∀ told ∈ later, told.1 ∈ rows)
    (once : (later.map (·.1.id)).Nodup) (grows : now.Sublist later)
    (sealed : ∀ told ∈ now, told.1.groupId = task.groupId → told.1 ≠ task →
      told.1 ∈ preceding tasks task)
    (settled : ∀ told ∈ later, told.1.groupId = task.groupId → told.1 ∈ preceding tasks task →
      told ∈ now) :
    task.siblings (rows.map (amended keep now)) = finishedBefore keep rows tasks later task := by
  have earlier : (now.map (·.1.id)).Nodup := (grows.map _).nodup once
  have part : ((later.filter (fun told => told.1 ∈ preceding tasks task)).map (·.1.id)).Nodup :=
    (List.filter_sublist.map _).nodup once
  refine filter_map_congr (fun row inside => ?_)
  by_cases meant : row.groupId = task.groupId ∧ row.id ≠ task.id
  · refine .inl (amended_congr earlier part (fun other result same => ?_))
    simp only [List.mem_filter, decide_eq_true_eq]
    have own (told : Task × Fate) (met : told ∈ later) (alike : told.1.id = row.id) :
        told.1 = row :=
      List.inj_on_of_nodup_map distinct (known told met) inside alike
    constructor
    · intro met
      obtain rfl := own _ (grows.subset met) same
      exact ⟨grows.subset met, sealed _ met meant.1 (fun alike => meant.2 (congrArg Task.id alike))⟩
    · rintro ⟨met, before⟩
      obtain rfl := own _ met same
      exact settled _ met meant.1 before
  · refine .inr ⟨?_, ?_⟩
    all_goals
      simp only [decide_eq_false_iff_not, amended_id, amended_groupId]
      exact fun ⟨_, grouped, _, other⟩ => meant ⟨grouped, other⟩

/-- A row that is told of had a result before, or is that of an earlier task that has succeeded
since. -/
theorem mem_finishedBefore (distinct : (rows.map Task.id).Nodup)
    (known : ∀ told ∈ later, told.1 ∈ rows) (once : (later.map (·.1.id)).Nodup)
    (fresh : ∀ row result, (row, .succeeded result) ∈ later → row.isDone = false ∧
      keep result = result ∧ result ≠ [])
    {told : Task} : told ∈ finishedBefore keep rows tasks later task ↔
      ∃ row ∈ rows, row.groupId.isSome ∧ row.groupId = task.groupId ∧ row.id ≠ task.id ∧
        ((row.isDone = true ∧ told = row) ∨ ∃ result, (row, .succeeded result) ∈ later ∧
          row ∈ preceding tasks task ∧ told = { row with result }) := by
  have part : ((later.filter (fun told => told.1 ∈ preceding tasks task)).map (·.1.id)).Nodup :=
    (List.filter_sublist.map _).nodup once
  simp only [finishedBefore, Task.siblings, List.mem_filter, List.mem_map, decide_eq_true_eq]
  constructor
  · rintro ⟨⟨row, inside, rfl⟩, some, grouped, done, other⟩
    rw [amended_groupId] at some grouped
    rw [amended_id] at other
    refine ⟨row, inside, some, grouped, other, ?_⟩
    by_cases met : ∃ result, (row, .succeeded result) ∈ later ∧ row ∈ preceding tasks task
    · obtain ⟨result, met, before⟩ := met
      have here : (row, .succeeded result) ∈ later.filter
          (fun told => told.1 ∈ preceding tasks task) :=
        List.mem_filter.mpr ⟨met, decide_eq_true before⟩
      exact .inr ⟨result, met, before, (fresh row result met).2.1 ▸ amended_met part here rfl⟩
    · have same : amended keep (later.filter (fun told => told.1 ∈ preceding tasks task))
          row = row := by
        refine amended_unmet (fun other result found alike => met ?_)
        obtain ⟨found, before⟩ := List.mem_filter.mp found
        obtain rfl := List.inj_on_of_nodup_map distinct (known _ found) inside alike
        exact ⟨result, found, of_decide_eq_true before⟩
      rw [same] at done
      exact .inl ⟨done, same⟩
  · rintro ⟨row, inside, some, grouped, other, ⟨done, rfl⟩ | ⟨result, met, before, rfl⟩⟩
    · have same : amended keep (later.filter (fun told => told.1 ∈ preceding tasks task)) told =
          told := by
        refine amended_unmet (fun other result found alike => ?_)
        have found := (List.mem_filter.mp found).1
        obtain rfl := List.inj_on_of_nodup_map distinct (known _ found) inside alike
        exact absurd done (by simp [(fresh _ _ found).1])
      exact ⟨⟨told, inside, same⟩, some, grouped, done, other⟩
    · have here : (row, .succeeded result) ∈ later.filter
          (fun told => told.1 ∈ preceding tasks task) :=
        List.mem_filter.mpr ⟨met, decide_eq_true before⟩
      obtain ⟨_, same, nonempty⟩ := fresh row result met
      have written : amended keep _ row = { row with result := keep result } :=
        amended_met part here rfl
      rw [same] at written
      exact ⟨⟨row, inside, written⟩, some, grouped, by simpa [Task.isDone] using nonempty, other⟩

/-- The rows keep their order. -/
theorem finishedBefore_ordered
    (ordered : rows.Pairwise (fun first second => first.id < second.id)) :
    (finishedBefore keep rows tasks later task).Pairwise
      (fun first second => first.id < second.id) := by
  refine List.Pairwise.sublist List.filter_sublist ?_
  simpa only [List.pairwise_map, amended_id] using ordered

end Lists

structure Loaded {σ τ : Type} [TaskStore σ τ] [Lawful σ] (store : σ)
    (tasks : List Task) : Prop where
  distinct : ((rows store).map Task.id).Nodup
  listed : tasks.Sublist (rows store)
  grouped : ∀ task ∈ tasks, ∀ group, task.groupId = some group → keep σ group = group

theorem Loaded.ids {σ τ : Type} [TaskStore σ τ] [Lawful σ] {store : σ} {tasks : List Task}
    (loaded : Loaded store tasks) : (tasks.map Task.id).Nodup :=
  (loaded.listed.map _).nodup loaded.distinct

theorem Loaded.unreliable {σ τ : Type} [TaskStore σ τ] [Lawful σ] {store : Unreliable σ}
    {tasks : List Task} (loaded : Loaded store.store tasks) : Loaded store tasks :=
  ⟨loaded.distinct, loaded.listed, loaded.grouped⟩

theorem Backend.Tidy.loaded {backend : Backend} {store : backend.Store}
    (tidy : backend.Tidy (rows store)) (pick : Task → Bool) :
    Loaded store ((rows store).filter pick) where
  distinct := tidy.distinct
  listed := List.filter_sublist
  grouped _ member _ grouped := tidy.group_kept (List.mem_of_mem_filter member) grouped

theorem Act.task_of_fate {act : Act} {task : Task} {fate : Fate}
    (sealed : act.fate? = some (task, fate)) :
    act.task? = some task := by
  cases act with
  | judged _ verdict => rcases verdict with fault | _ | _ <;> simp_all [Act.fate?, Act.task?]
  | settled _ state => cases state <;> simp_all [Act.fate?, Act.task?]
  | _ => simp_all [Act.fate?, Act.task?]

namespace WorkerPool
variable {σ τ ε : Type} [TaskStore σ τ] {crew : Crew ε} {tasks : List Task}
  {groups : List TaskGroup} {count : Nat} {history earlier : History} {pool before : WorkerPool σ ε}
  {task : Task} {i : Nat}

/-- Nothing is done about tasks that are not listed. -/
theorem Stands.listed (stands : Stands crew groups count history pool)
    (splits : TaskGroup.Splits tasks groups) {act : Act} (member : (i, act) ∈ history)
    (about : act.task? = some task) : task ∈ tasks := by
  obtain ⟨group, took, inside⟩ := stands.held member about
  exact splits.mem.mpr ⟨group, stands.handed_prefix.subset (List.mem_map_of_mem took), inside⟩

theorem Stands.fates_known (stands : Stands crew groups count history pool)
    (splits : TaskGroup.Splits tasks groups) {told : Task × Fate} (met : told ∈ history.fates) :
    told.1 ∈ tasks := by
  obtain ⟨i, act, member, sealed⟩ := History.mem_fates.mp met
  exact stands.listed splits member (Act.task_of_fate sealed)

theorem Stands.fate_ids_once (stands : Stands crew groups count history pool)
    (splits : TaskGroup.Splits tasks groups) (ids : (tasks.map Task.id).Nodup) :
    (history.fates.map (·.1.id)).Nodup := by
  have once := stands.fates_once splits (.of_map _ ids)
  have all : ((history.fates.map Prod.fst).map Task.id).Nodup := by
    refine once.map_on (fun first left second right same => ?_)
    obtain ⟨one, met, rfl⟩ := List.mem_map.mp left
    obtain ⟨two, meets, rfl⟩ := List.mem_map.mp right
    exact List.inj_on_of_nodup_map ids (stands.fates_known splits met)
      (stands.fates_known splits meets) same
  rwa [List.map_map] at all

/-- The acts of a worker with a task in hand. -/
theorem Stands.within (stands : Stands crew groups count history pool) {worker : Worker}
    {run : GroupRun} (found : pool.workers[i]? = some worker) (busy : worker.stage = .busy run)
    (hand : run.stage.task? = some task) :
    ∃ past group told opening, Tales crew past worker.report ∧
      Opening crew task run.stage opening ∧ (fatesOf told).map Prod.fst ++ task :: run.waiting =
        group.tasks ∧
      history.own i = past ++ .took group :: (told ++ opening) := by
  obtain ⟨past, group, acts, tales, standing, own⟩ := stands.busy found busy
  cases standing with
  | between _ deciding _ _ => simp [deciding, GroupRun.Stage.task?] at hand
  | @within told other opening _ opened listed _ =>
    obtain rfl := Option.some.inj (opened.inHand.symm.trans hand)
    exact ⟨past, group, told, opening, tales, opened, listed, own⟩

/-- What a worker did before it took a group has nothing to do with the group, which would have been
taken twice. -/
theorem Stands.past_apart (stands : Stands crew groups count history pool)
    (splits : TaskGroup.Splits tasks groups) (distinct : tasks.Nodup) {past told : List Act}
    {group : TaskGroup} {report : RunReport} {act : Act} (tales : Tales crew past report)
    (own : history.own i = past ++ .took group :: told) (known : group ∈ groups)
    (member : act ∈ past) (about : act.task? = some task) : task ∉ group.tasks := by
  intro inside
  obtain ⟨twin, again, shared⟩ := tales.kept act member task about
  have took : (i, .took twin) ∈ history := History.mem_own.mp (own ▸ List.mem_append_left _ again)
  have listed := stands.handed_prefix.subset (List.mem_map_of_mem (History.mem_handed.mpr took))
  obtain rfl := splits.group_unique distinct listed known shared inside
  have once := (stands.groups_sublist i).nodup (splits.nodup distinct)
  rw [own, groupsOf, List.filterMap_append, List.nodup_append] at once
  have first : twin ∈ past.filterMap Act.group? := List.mem_filterMap.mpr ⟨_, again, rfl⟩
  have second : twin ∈ (.took twin :: told).filterMap Act.group? :=
    List.mem_filterMap.mpr ⟨_, List.mem_cons_self, rfl⟩
  exact once.2.2 twin first twin second rfl

/-- While a task is in hand, the fates met in its group are those of the tasks before it. -/
theorem Stands.inHand (stands : Stands crew groups count history pool)
    (splits : TaskGroup.Splits tasks groups) (distinct : tasks.Nodup) {worker : Worker}
    {run : GroupRun} (found : pool.workers[i]? = some worker) (busy : worker.stage = .busy run)
    (hand : run.stage.task? = some task) :
    ∃ group ∈ groups, ∃ sealed : List (Task × Fate),
      sealed.map Prod.fst ++ task :: run.waiting = group.tasks ∧
      ∀ told, told ∈ sealed ↔ told ∈ history.fates ∧ told.1 ∈ group.tasks := by
  obtain ⟨past, group, told, opening, tales, opened, listed, own⟩ := stands.within found busy hand
  have took : (i, .took group) ∈ history := by
    refine History.mem_own.mp (own ▸ ?_)
    exact List.mem_append_right _ List.mem_cons_self
  have handed := History.mem_handed.mpr took
  have known := stands.handed_prefix.subset (List.mem_map_of_mem handed)
  refine ⟨group, known, fatesOf told, listed, fun entry => ⟨fun member => ?_, fun both => ?_⟩⟩
  · obtain ⟨act, inside, sealed⟩ := List.mem_filterMap.mp member
    refine ⟨History.mem_fates.mpr ⟨i, act, History.mem_own.mp (own ▸ ?_), sealed⟩, listed ▸ ?_⟩
    · exact List.mem_append_right _ (List.mem_cons_of_mem _ (List.mem_append_left _ inside))
    · exact List.mem_append_left _ (List.mem_map_of_mem member)
  · obtain ⟨met, inside⟩ := both
    obtain ⟨j, act, member, sealed⟩ := History.mem_fates.mp met
    have about := Act.task_of_fate sealed
    have holds := stands.holder splits distinct member about inside known
    obtain rfl := stands.holder_unique (splits.nodup distinct) holds handed
    have member := own ▸ History.mem_own.mpr member
    rcases List.mem_append.mp member with member | member
    · exact absurd inside (stands.past_apart splits distinct tales own known member about)
    rcases List.mem_cons.mp member with rfl | member
    · contradiction
    rcases List.mem_append.mp member with member | member
    · exact List.mem_filterMap.mpr ⟨act, member, sealed⟩
    · have none := opened.fates
      rw [fatesOf, List.filterMap_eq_nil_iff] at none
      rw [none act member] at sealed
      contradiction

theorem Stands.inHand_listed (stands : Stands crew groups count history pool)
    (splits : TaskGroup.Splits tasks groups) (distinct : tasks.Nodup) {worker : Worker}
    {run : GroupRun} (found : pool.workers[i]? = some worker) (busy : worker.stage = .busy run)
    (hand : run.stage.task? = some task) : task ∈ tasks := by
  obtain ⟨own, known, _, listed, _⟩ := stands.inHand splits distinct found busy hand
  exact splits.mem.mpr ⟨own, known, listed ▸ List.mem_append_right _ List.mem_cons_self⟩

variable [Lawful σ] {drift : σ → σ → Prop} {store : σ} {env : ε}

/-- What is read for a task in hand, seen from any later time of the run. -/
theorem Stands.reads_finished (loaded : Loaded store tasks)
    (path : Reaches crew drift (start store env (Scheduler.fullQueue groups) count) earlier before)
    (drifts : ∀ before after, drift before after → rows after = rows before)
    (splits : TaskGroup.Splits tasks groups) (stands : Stands crew groups count history pool)
    (grows : earlier.fates.Sublist history.fates) {worker : Worker} {run : GroupRun}
    (found : before.workers[i]? = some worker) (busy : worker.stage = .busy run)
    (hand : run.stage.task? = some task) :
    task.siblings (rows before.store) = finishedBefore (keep σ) (rows store) tasks history.fates
      task := by
  rcases grouped : task.groupId with _ | group
  · rw [siblings_none grouped, finishedBefore, siblings_none grouped]
  have distinct : tasks.Nodup := .of_map _ loaded.ids
  obtain ⟨own, known, sealed, listed, met⟩ := path.stands.inHand splits distinct found busy hand
  have inside : task ∈ own.tasks := listed ▸ List.mem_append_right _ List.mem_cons_self
  have label : own.groupId = some group := (splits.groupId_eq known inside).symm.trans grouped
  have tasksOf : own.tasks = tasks.filter (fun t => t.groupId = task.groupId) := by
    rw [splits.grouped own known (by simp [label]), label, grouped]
  have ahead : (preceding tasks task).filter (fun t => t.groupId = task.groupId) =
      sealed.map Prod.fst := by
    rw [← preceding_filter _ (decide_eq_true rfl), ← tasksOf, ← listed]
    refine preceding_split (fun again => ?_)
    have once := listed ▸ (splits.sublist known).nodup distinct
    exact (List.nodup_append.mp once).2.2 task again task List.mem_cons_self rfl
  have once : (history.fates.map Prod.fst).Nodup := stands.fates_once splits distinct
  have onceIds := stands.fate_ids_once splits loaded.ids
  rw [path.rows_amended drifts]
  refine read_finished loaded.distinct
    (fun told met => loaded.listed.subset (stands.fates_known splits met))
    onceIds grows (fun told meets alike other => ?_) (fun told meets alike before => ?_)
  · have shared : told.1 ∈ own.tasks := by
      rw [tasksOf]
      exact List.mem_filter.mpr ⟨path.stands.fates_known splits meets, decide_eq_true alike⟩
    have done : told.1 ∈ sealed.map Prod.fst := List.mem_map_of_mem ((met told).mpr ⟨meets, shared⟩)
    rw [← ahead] at done
    exact (List.mem_filter.mp done).1
  · have done : told.1 ∈ sealed.map Prod.fst := by
      rw [← ahead]
      exact List.mem_filter.mpr ⟨before, decide_eq_true alike⟩
    obtain ⟨twin, inSealed, same⟩ := List.mem_map.mp done
    have early := ((met twin).mp inSealed).1
    exact List.inj_on_of_nodup_map once (grows.subset early) meets same ▸ early

end WorkerPool
end CodeAudit
