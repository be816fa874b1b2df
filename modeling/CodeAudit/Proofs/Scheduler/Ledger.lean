import CodeAudit.Proofs.Scheduler.PoolHistory

/-! What the acts of a worker say of the groups it took: every act is about a task of such a group,
tasks are looked at in the order of the groups, and each act follows on those before it. -/
namespace CodeAudit

section Stories
variable {ε : Type} {crew : Crew ε} {task : Task} {stage : GroupRun.Stage} {acts story : List Act}
  {fate : Fate}

theorem Opening.about (opening : Opening crew task stage acts) :
    ∀ act ∈ acts, act.task? = some task := by
  induction opening with
  | accepted _ _ => simp [Act.task?]
  | alone _ ih | briefed _ _ _ _ ih | called _ _ ih =>
    simpa [or_imp, forall_and, Act.task?] using ih
  | answered _ _ _ _ ih => simpa [or_imp, forall_and, Act.task?] using ih

theorem Story.about (tale : Story crew task fate story) : ∀ act ∈ story, act.task? = some task := by
  cases tale with
  | done _ | turnedDown _ _ => simp [Act.task?]
  | unread _ opening | misbriefed opening _ _ _ | unsaved _ opening =>
    simpa [or_imp, forall_and, Act.task?] using opening.about
  | refused opening _ | late opening _ | blank opening _ =>
    simpa [or_imp, forall_and, Act.task?] using opening.about
  | saved opening => simpa [or_imp, forall_and, Act.task?] using opening.about

theorem Telling.about (telling : Telling crew acts) :
    ∀ act ∈ acts, ∃ task ∈ (fatesOf acts).map Prod.fst, act.task? = some task := by
  induction telling with
  | nil => simp
  | add _ tale ih =>
    intro act member
    rw [fatesOf_append, List.map_append, tale.fates]
    rcases List.mem_append.mp member with member | member
    · obtain ⟨task, told, same⟩ := ih act member
      exact ⟨task, List.mem_append_left _ told, same⟩
    · exact ⟨_, List.mem_append_right _ (List.mem_singleton_self _), tale.about act member⟩

end Stories

namespace GroupRun
variable {ε : Type} {crew : Crew ε} {group : TaskGroup} {run : GroupRun} {told : List Act}

theorem Stands.about (stands : Stands crew group run told) :
    ∀ act ∈ told, ∃ task ∈ group.tasks, act.task? = some task := by
  intro act member
  cases stands with
  | between telling _ tasks _ =>
    obtain ⟨task, inside, same⟩ := telling.about act member
    exact ⟨task, tasks ▸ List.mem_append_left _ inside, same⟩
  | within telling opened tasks _ =>
    rcases List.mem_append.mp member with member | member
    · obtain ⟨task, inside, same⟩ := telling.about act member
      exact ⟨task, tasks ▸ List.mem_append_left _ inside, same⟩
    · exact ⟨_, tasks ▸ List.mem_append_right _ List.mem_cons_self, opened.about act member⟩

theorem Stands.decided (stands : Stands crew group run told) :
    told.filterMap Act.decided? <+: group.tasks := by
  cases stands with
  | between telling _ tasks _ =>
    rw [telling.decided, ← tasks]
    exact List.prefix_append _ _
  | within telling opened tasks _ =>
    rw [List.filterMap_append, telling.decided, opened.decided, ← tasks]
    exact ⟨run.waiting, by simp⟩

theorem Stands.calls (stands : Stands crew group run told) :
    (told.filterMap Act.called?).Sublist (told.filterMap Act.decided?) := by
  cases stands with
  | between telling _ _ _ => exact telling.calls
  | within telling opened _ _ =>
    rw [List.filterMap_append, List.filterMap_append, opened.decided]
    exact telling.calls.append opened.calls_once

theorem Stands.proper (stands : Stands crew group run told) : Proper crew told := by
  cases stands with
  | between telling _ _ _ => exact telling.proper
  | within telling opened _ _ => exact telling.proper.append telling.quiet opened.proper

end GroupRun

def groupsOf (acts : List Act) : List TaskGroup := acts.filterMap Act.group?

/-- The filter never fails. -/
def Crew.Decides {ε : Type} (crew : Crew ε) : Prop :=
  ∀ task env fault, (crew.judge task env).1 ≠ .error fault

section Workers
variable {ε : Type} {crew : Crew ε} {worker : Worker} {acts told own : List Act}
  {report : RunReport} {group : TaskGroup}

/-- Every act after a group was taken is about one of its tasks. -/
def Kept (acts : List Act) : Prop :=
  ∀ act ∈ acts, ∀ task, act.task? = some task → ∃ group, .took group ∈ acts ∧ task ∈ group.tasks

theorem Kept.take (kept : Kept acts)
    (about : ∀ act ∈ told, ∃ task ∈ group.tasks, act.task? = some task) :
    Kept (acts ++ .took group :: told) := by
  intro act member task same
  rcases List.mem_append.mp member with member | member
  · obtain ⟨holder, took, inside⟩ := kept act member task same
    exact ⟨holder, List.mem_append_left _ took, inside⟩
  · refine ⟨group, List.mem_append_right _ List.mem_cons_self, ?_⟩
    rcases List.mem_cons.mp member with rfl | member
    · contradiction
    · obtain ⟨found, inside, here⟩ := about act member
      exact Option.some.inj (here.symm.trans same) ▸ inside

theorem Telling.about_group (telling : Telling crew told)
    (tasks : (fatesOf told).map Prod.fst ++ rest = group.tasks) :
    ∀ act ∈ told, ∃ task ∈ group.tasks, act.task? = some task := by
  intro act member
  obtain ⟨task, inside, same⟩ := telling.about act member
  exact ⟨task, tasks ▸ List.mem_append_left _ inside, same⟩

theorem Tales.kept (tales : Tales crew acts report) : Kept acts := by
  induction tales with
  | nil => simp [Kept]
  | whole _ telling tasks ih =>
    exact ih.take (telling.about_group ((List.append_nil _).trans tasks))
  | broken _ telling _ tasks _ ih =>
    refine ih.take (fun act member => ?_)
    rcases List.mem_append.mp member with member | member
    · exact telling.about_group tasks act member
    · obtain rfl := List.mem_singleton.mp member
      exact ⟨_, tasks ▸ List.mem_append_right _ List.mem_cons_self, rfl⟩

theorem Worker.Stands.kept (stands : worker.Stands crew own) : Kept own := by
  cases stands with
  | free tales _ => exact tales.kept
  | busy tales _ standing => exact tales.kept.take standing.about

/-! Acts in their order. -/

theorem Proper.take (proper : Proper crew acts) (quiet : Quiet acts) (right : Proper crew told) :
    Proper crew (acts ++ .took group :: told) := by
  rw [List.append_cons]
  have first : Follows crew acts (.took group) := trivial
  refine (proper.concat first).append ?_ right
  exact quiet.append (.of_uncalled rfl)

theorem Quiet.take (quiet : Quiet acts) (right : Quiet told) :
    Quiet (acts ++ .took group :: told) := by
  rw [List.append_cons]
  exact (quiet.append (.of_uncalled rfl)).append right

theorem Tales.quiet (tales : Tales crew acts report) : Quiet acts := by
  induction tales with
  | nil => exact .of_uncalled rfl
  | whole _ telling _ ih => exact ih.take telling.quiet
  | broken _ telling _ _ _ ih => exact ih.take (telling.quiet.append (.of_uncalled rfl))

theorem Tales.proper (tales : Tales crew acts report) : Proper crew acts := by
  induction tales with
  | nil => exact .nil
  | whole tales telling _ ih => exact ih.take tales.quiet telling.proper
  | broken tales telling undone _ judged ih =>
    refine ih.take tales.quiet (telling.proper.concat ?_)
    exact ⟨undone, _, congrArg Prod.fst judged⟩

theorem Worker.Stands.proper (stands : worker.Stands crew own) : Proper crew own := by
  cases stands with
  | free tales _ => exact tales.proper
  | busy tales _ standing => exact tales.proper.take tales.quiet standing.proper

/-- Nothing is called for that was not looked at. -/
theorem Tales.calls (tales : Tales crew acts report) :
    (acts.filterMap Act.called?).Sublist (acts.filterMap Act.decided?) := by
  induction tales with
  | nil => exact List.nil_sublist _
  | whole _ telling _ ih =>
    rw [List.filterMap_append, List.filterMap_append]
    exact ih.append telling.calls
  | broken _ telling _ _ _ ih =>
    rw [List.filterMap_append, List.filterMap_append]
    refine ih.append ?_
    simp only [List.filterMap_cons, Act.called?, Act.decided?, List.filterMap_append,
      List.filterMap_nil,
      List.append_nil]
    exact telling.calls.trans (List.sublist_append_left _ _)

theorem Worker.Stands.calls (stands : worker.Stands crew own) :
    (own.filterMap Act.called?).Sublist (own.filterMap Act.decided?) := by
  cases stands with
  | free tales _ => exact tales.calls
  | busy tales _ standing =>
    rw [List.filterMap_append, List.filterMap_append]
    exact tales.calls.append standing.calls

/-! The groups that were taken, and their tasks. -/

theorem ungrouped (about : ∀ act ∈ told, ∃ task ∈ group.tasks, act.task? = some task) :
    groupsOf told = [] := by
  refine List.filterMap_eq_nil_iff.mpr (fun act member => ?_)
  obtain ⟨task, _, same⟩ := about act member
  cases act <;> first | rfl | contradiction

theorem groupsOf_take (acts : List Act)
    (about : ∀ act ∈ told, ∃ task ∈ group.tasks, act.task? = some task) :
    groupsOf (acts ++ .took group :: told) = groupsOf acts ++ [group] := by
  have none := ungrouped about
  unfold groupsOf at none ⊢
  simp [Act.group?, none]

theorem groupsOf_broken (acts : List Act) {task : Task} {verdict : Except Fault Bool}
    (about : ∀ act ∈ told, ∃ task ∈ group.tasks, act.task? = some task) :
    groupsOf (acts ++ .took group :: (told ++ [.judged task verdict])) =
      groupsOf acts ++ [group] := by
  have none := ungrouped about
  unfold groupsOf at none ⊢
  simp [Act.group?, none]

/-- Only tasks of the groups taken are looked at, each once. -/
theorem Tales.decided_sublist (tales : Tales crew acts report) :
    (acts.filterMap Act.decided?).Sublist ((groupsOf acts).flatMap TaskGroup.tasks) := by
  induction tales with
  | nil => exact List.nil_sublist _
  | @whole acts report told group _ telling tasks ih =>
    have about := telling.about_group ((List.append_nil _).trans tasks)
    rw [groupsOf_take acts about, List.filterMap_append, List.flatMap_append,
      List.flatMap_singleton, ← tasks,
      ← telling.decided]
    exact ih.append (List.Sublist.refl _)
  | @broken acts report told task rest group _ _ _ _ telling _ tasks _ ih =>
    rw [groupsOf_broken acts (telling.about_group tasks), List.filterMap_append,
      List.flatMap_append,
      List.flatMap_singleton, ← tasks]
    refine ih.append ?_
    simp only [List.filterMap_cons, Act.decided?, List.filterMap_append, telling.decided,
      List.filterMap_nil]
    exact (List.Sublist.refl _).append (List.singleton_sublist.mpr List.mem_cons_self)

theorem Worker.Stands.decided_sublist (stands : worker.Stands crew own) :
    (own.filterMap Act.decided?).Sublist ((groupsOf own).flatMap TaskGroup.tasks) := by
  cases stands with
  | free tales _ => exact tales.decided_sublist
  | busy tales _ standing =>
    rw [groupsOf_take _ standing.about, List.filterMap_append, List.flatMap_append,
      List.flatMap_singleton]
    exact tales.decided_sublist.append standing.decided.sublist

/-- Only tasks that were looked at meet their fates, each one. -/
theorem Tales.fates_sublist (tales : Tales crew acts report) :
    ((fatesOf acts).map Prod.fst).Sublist (acts.filterMap Act.decided?) := by
  induction tales with
  | nil => exact List.nil_sublist _
  | whole _ telling _ ih =>
    rw [fatesOf_append, List.map_append, List.filterMap_append]
    refine ih.append ?_
    simp [Act.fate?, Act.decided?, List.filterMap_cons, telling.decided]
  | broken _ telling _ _ _ ih =>
    rw [fatesOf_append, List.map_append, List.filterMap_append]
    refine ih.append ?_
    simp only [List.filterMap_cons, Act.decided?, List.filterMap_append, telling.decided,
      List.filterMap_nil]
    simp [Act.fate?]

theorem GroupRun.Stands.fates_sublist {run : GroupRun} (stands : run.Stands crew group told) :
    ((fatesOf told).map Prod.fst).Sublist (told.filterMap Act.decided?) := by
  cases stands with
  | between telling _ _ _ => simp [telling.decided]
  | within telling opened _ _ =>
    rw [fatesOf_append, opened.fates, List.append_nil, List.filterMap_append, telling.decided]
    exact List.sublist_append_left _ _

theorem Worker.Stands.fates_sublist (stands : worker.Stands crew own) :
    ((fatesOf own).map Prod.fst).Sublist (own.filterMap Act.decided?) := by
  cases stands with
  | free tales _ => exact tales.fates_sublist
  | busy tales _ standing =>
    rw [fatesOf_append, List.map_append, List.filterMap_append]
    exact tales.fates_sublist.append standing.fates_sublist

/-! Where the filter never fails, no group is given up. -/

/-- What befell the tasks of the groups taken, in their order. -/
theorem Tales.tasks (tales : Tales crew acts report) (decides : crew.Decides) :
    (fatesOf acts).map Prod.fst = (groupsOf acts).flatMap TaskGroup.tasks ∧
      acts.filterMap Act.decided? = (groupsOf acts).flatMap TaskGroup.tasks := by
  induction tales with
  | nil => exact ⟨rfl, rfl⟩
  | @whole acts report told group _ telling tasks ih =>
    have grown := groupsOf_take acts (telling.about_group ((List.append_nil _).trans tasks))
    rw [grown, List.flatMap_append, List.flatMap_singleton, ← ih.1, ← tasks]
    refine ⟨by simp [Act.fate?], ?_⟩
    rw [List.filterMap_append, ih.2, ih.1, ← telling.decided]
    rfl
  | broken _ _ _ _ judged => exact absurd (congrArg Prod.fst judged) (decides _ _ _)

/-- The report of a worker tells the fates of its groups' tasks. -/
theorem Tales.reported (tales : Tales crew acts report) (decides : crew.Decides)
    (distinct : ((fatesOf acts).map (·.1.id)).Nodup) :
    report = .ofFates (groupsOf acts).length (fatesOf acts) := by
  induction tales with
  | nil => exact RunReport.ofFates_nil.symm
  | @whole acts report told group _ telling tasks ih =>
    have grown := groupsOf_take acts (telling.about_group ((List.append_nil _).trans tasks))
    simp only [fatesOf_append, fatesOf_cons, Act.fate?, Option.toList_none,
      List.nil_append] at distinct ⊢
    have earlier := (List.nodup_append.mp (List.map_append ▸ distinct)).1
    rw [grown, ih earlier, RunReport.merge_ofFates _ _ distinct, List.length_append,
      List.length_singleton]
  | broken _ _ _ _ judged => exact absurd (congrArg Prod.fst judged) (decides _ _ _)

theorem Worker.Stands.decided (stands : worker.Stands crew own) (decides : crew.Decides) :
    own.filterMap Act.decided? <+: (groupsOf own).flatMap TaskGroup.tasks := by
  cases stands with
  | free tales _ =>
    have whole := (tales.tasks decides).2
    exact whole ▸ List.prefix_rfl
  | busy tales _ standing =>
    rw [groupsOf_take _ standing.about, List.filterMap_append, (tales.tasks decides).2,
      List.flatMap_append,
      List.flatMap_singleton]
    exact (List.prefix_append_right_inj _).mpr standing.decided

end Workers
end CodeAudit
