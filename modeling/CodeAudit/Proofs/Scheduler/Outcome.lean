import CodeAudit.Proofs.Scheduler.Orderly

/-! The end of a run. Once every worker has left, every group has been worked off whole, every task
has met its fate, and the report of the pool tells just these fates. -/
namespace CodeAudit.WorkerPool
variable {σ τ ε : Type} [TaskStore σ τ] {crew : Crew ε} {tasks : List Task}
  {groups : List TaskGroup} {count : Nat} {history : History} {pool : WorkerPool σ ε}

theorem Stands.ended (stands : Stands crew groups count history pool)
    (finished : pool.isFinished = true) {i : Nat} (below : i < count) :
    ∃ worker : Worker, pool.workers[i]? = some worker ∧
      worker.stage = .finished ∧
      Tales crew (history.own i) worker.report := by
  obtain ⟨worker, found, standing⟩ := stands.own below
  have left := List.all_eq_true.mp finished worker (List.mem_of_getElem? found)
  have stage : worker.stage = .finished := by
    unfold Worker.isFinished at left
    split at left <;> trivial
  exact ⟨worker, found, stage, standing.told (by simp [stage])⟩

/-- Nobody leaves before every group has been handed out. -/
theorem Stands.handed_all (stands : Stands crew groups count history pool)
    (finished : pool.isFinished = true) (manned : 0 < count) :
    history.handed.map Prod.snd = groups := by
  obtain ⟨worker, found, stage, _⟩ := stands.ended finished manned
  have empty := stands.drained worker (List.mem_of_getElem? found) stage
  simpa [empty] using stands.handed

/-- Each group went to one worker. -/
theorem Stands.handed_to (stands : Stands crew groups count history pool)
    (finished : pool.isFinished = true) (manned : 0 < count) (distinct : groups.Nodup)
    {group : TaskGroup} (known : group ∈ groups) :
    ∃! i, (i, group) ∈ history.handed := by
  rw [← stands.handed_all finished manned] at known
  obtain ⟨⟨i, found⟩, took, rfl⟩ := List.mem_map.mp known
  exact ⟨i, took, fun j other => stands.holder_unique distinct other took⟩

/-- Every task of a group has been looked at, in the order of the group. -/
theorem Stands.decided_all (stands : Stands crew groups count history pool)
    (finished : pool.isFinished = true) (manned : 0 < count) (decides : crew.Decides)
    (splits : TaskGroup.Splits tasks groups) (distinct : tasks.Nodup) {group : TaskGroup}
    (known : group ∈ groups) :
    history.decided.filter (· ∈ group.tasks) = group.tasks := by
  obtain ⟨i, took, _⟩ := stands.handed_to finished manned (splits.nodup distinct) known
  have held : (i, .took group) ∈ history := History.mem_handed.mp took
  obtain ⟨worker, _, _, tales⟩ := stands.ended finished (stands.known _ held)
  have listed : group ∈ groupsOf (history.own i) :=
    List.mem_filterMap.mpr ⟨_, History.mem_own.mpr held, rfl⟩
  rw [stands.decided_own splits distinct took, (tales.tasks decides).2]
  exact filter_flatMap_group ((splits.disjoint distinct).sublist (stands.groups_sublist i)) listed

/-- Every task has met one fate. -/
theorem Stands.fates_perm (stands : Stands crew groups count history pool)
    (finished : pool.isFinished = true) (manned : 0 < count) (decides : crew.Decides)
    (splits : TaskGroup.Splits tasks groups) :
    (history.fates.map Prod.fst).Perm tasks := by
  refine .trans ?_ splits.perm
  have taken := History.perm_own stands.known Act.group?
  have told := (History.perm_own stands.known Act.fate?).map Prod.fst
  have handed := stands.handed_all finished manned
  rw [History.handed_groups, groupsOf, List.filterMap_map] at handed
  rw [← handed]
  refine told.trans (.trans (.of_eq ?_) (taken.symm.flatMap_right TaskGroup.tasks))
  rw [List.map_flatMap, List.flatMap_assoc]
  refine List.flatMap_congr (fun i member => ?_)
  obtain ⟨worker, _, _, tales⟩ := stands.ended finished (List.mem_range.mp member)
  exact (tales.tasks decides).1

def part (history : History) (i : Nat) : List TaskGroup × List (Task × Fate) :=
  (groupsOf (history.own i), fatesOf (history.own i))

/-- What the workers report, one by one. -/
theorem Stands.map_report (stands : Stands crew groups count history pool) {told : Nat → RunReport}
    (each : ∀ i worker, pool.workers[i]? = some worker → worker.report = told i) :
    pool.workers.map Worker.report = (List.range count).map told := by
  refine List.ext_getElem (by simp [stands.workers]) (fun i inWorkers inRange => ?_)
  have inside : i < pool.workers.length := by simpa using inWorkers
  simp only [List.getElem_map, List.getElem_range]
  exact each i _ (List.getElem?_eq_getElem inside)

theorem Stands.reports (stands : Stands crew groups count history pool)
    (finished : pool.isFinished = true) (decides : crew.Decides)
    (distinct : (history.fates.map (·.1.id)).Nodup) :
    pool.workers.map Worker.report = ((List.range count).map (part history)).map
      (fun (groups, fates) => RunReport.ofFates groups.length fates) := by
  rw [List.map_map]
  refine stands.map_report (fun i worker found => ?_)
  obtain ⟨_, same, _, tales⟩ := stands.ended finished (stands.present found)
  obtain rfl := Option.some.inj (found.symm.trans same)
  exact tales.reported decides (History.own_once distinct i)

/-- The workers' reports, merged in their order, tell the fates of all tasks. -/
theorem Stands.report (stands : Stands crew groups count history pool)
    (finished : pool.isFinished = true) (manned : 0 < count) (decides : crew.Decides)
    (splits : TaskGroup.Splits tasks groups) (distinct : (tasks.map Task.id).Nodup) :
    pool.report = .ofFates groups.length history.fates := by
  have once := RunReport.ids_nodup (stands.fates_perm finished manned decides splits) distinct
  have told : history.fates.Perm (((List.range count).map (part history)).flatMap Prod.snd) := by
    rw [List.flatMap_map]
    exact History.perm_own stands.known Act.fate?
  have taken : groups.Perm (((List.range count).map (part history)).flatMap Prod.fst) := by
    have handed := stands.handed_all finished manned
    rw [History.handed_groups, groupsOf, List.filterMap_map] at handed
    rw [List.flatMap_map, ← handed]
    exact History.perm_own stands.known Act.group?
  have apart := (told.map _).nodup_iff.mp once
  rw [WorkerPool.report, stands.reports finished decides once,
    RunReport.mergeAll_ofFates _ apart, ← taken.length_eq]
  exact RunReport.ofFates_perm _ told.symm apart

end CodeAudit.WorkerPool
