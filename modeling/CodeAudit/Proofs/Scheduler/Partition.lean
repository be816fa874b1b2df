import CodeAudit.Scheduler.TaskGroup
import Mathlib.Data.List.Induction
import Mathlib.Data.List.Nodup
import Mathlib.Data.List.Pairwise
import Mathlib.Data.List.Perm.Basic

/-! What partitioning a list of tasks keeps. The groups hold every task once; a group with an id
holds exactly the tasks with that id, in the order of the list, and a task without an id is a group
of its own. -/
namespace CodeAudit.TaskGroup

structure Splits (tasks : List Task) (groups : List TaskGroup) : Prop where
  perm : (groups.flatMap TaskGroup.tasks).Perm tasks
  inhabited : ∀ group ∈ groups, group.tasks ≠ []
  grouped : ∀ group ∈ groups, group.groupId.isSome →
    group.tasks = tasks.filter (fun t => t.groupId = group.groupId)
  single : ∀ group ∈ groups, group.groupId = none →
    ∃ task ∈ tasks, task.groupId = none ∧ group.tasks = [task]
  unique : groups.Pairwise (fun first second => first.groupId.isSome →
    first.groupId ≠ second.groupId)

variable {tasks : List Task} {groups : List TaskGroup}

def extend (task : Task) (group : TaskGroup) : TaskGroup :=
  if group.groupId = task.groupId then { group with tasks := group.tasks ++ [task] } else group

@[simp] theorem extend_groupId (task : Task) (group : TaskGroup) :
    (extend task group).groupId = group.groupId := by
  unfold extend
  split <;> rfl

theorem extend_other {task : Task} {group : TaskGroup} (other : group.groupId ≠ task.groupId) :
    extend task group = group := if_neg other

theorem extend_own {task : Task} {group : TaskGroup} (own : group.groupId = task.groupId) :
    (extend task group).tasks = group.tasks ++ [task] := by
  rw [extend, if_pos own]

/-- Only one group takes the task in, so that all groups together grow by just that task. -/
theorem extend_perm {task : Task} (identified : task.groupId.isSome)
    (present : ∃ group ∈ groups, group.groupId = task.groupId)
    (unique : groups.Pairwise (fun first second => first.groupId.isSome →
      first.groupId ≠ second.groupId)) :
    ((groups.map (extend task)).flatMap TaskGroup.tasks).Perm
      (groups.flatMap TaskGroup.tasks ++ [task]) := by
  induction groups with
  | nil =>
    obtain ⟨group, member, _⟩ := present
    contradiction
  | cons group rest ih =>
    obtain ⟨apart, unique⟩ := List.pairwise_cons.mp unique
    by_cases own : group.groupId = task.groupId
    · have kept : rest.map (extend task) = rest := by
        conv_rhs => rw [← List.map_id rest]
        refine List.map_congr_left (fun other member => extend_other ?_)
        exact fun same => apart other member (own ▸ identified) (own.trans same.symm)
      simp only [List.map_cons, List.flatMap_cons, kept, extend_own own, List.append_assoc]
      exact List.perm_append_comm.append_left group.tasks
    · have present : ∃ group ∈ rest, group.groupId = task.groupId := by
        obtain ⟨found, member, same⟩ := present
        rcases List.mem_cons.mp member with rfl | member
        · exact absurd same own
        · exact ⟨found, member, same⟩
      simpa only [List.map_cons, List.flatMap_cons, extend_other own, List.append_assoc] using
        (ih present unique).append_left group.tasks

theorem Splits.extend {task : Task} (splits : Splits tasks groups)
    (identified : task.groupId.isSome) (present : ∃ group ∈ groups, group.groupId = task.groupId) :
    Splits (tasks ++ [task]) (groups.map (extend task)) where
  perm := (extend_perm identified present splits.unique).trans (splits.perm.append_right [task])
  inhabited := by
    intro group member
    obtain ⟨before, prior, rfl⟩ := List.mem_map.mp member
    by_cases own : before.groupId = task.groupId
    · simp [extend_own own]
    · rw [extend_other own]
      exact splits.inhabited before prior
  grouped := by
    intro group member isSome
    obtain ⟨before, prior, rfl⟩ := List.mem_map.mp member
    rw [extend_groupId] at isSome ⊢
    have tasksBefore := splits.grouped before prior isSome
    by_cases own : before.groupId = task.groupId
    · rw [extend_own own, tasksBefore]
      simp [own]
    · rw [extend_other own, tasksBefore]
      simp [Ne.symm own]
  single := by
    intro group member isNone
    obtain ⟨before, prior, rfl⟩ := List.mem_map.mp member
    rw [extend_groupId] at isNone
    obtain ⟨only, inside, alone, same⟩ := splits.single before prior isNone
    rw [extend_other (fun own => by rw [← own, isNone] at identified; contradiction)]
    exact ⟨only, List.mem_append_left _ inside, alone, same⟩
  unique := by
    rw [List.pairwise_map]
    simpa only [extend_groupId] using splits.unique

theorem Splits.add {task : Task} (splits : Splits tasks groups)
    (fresh : task.groupId.isSome → ∀ group ∈ groups, group.groupId ≠ task.groupId) :
    Splits (tasks ++ [task]) (groups ++ [{ groupId := task.groupId, tasks := [task] }]) where
  perm := by simpa using splits.perm.append_right [task]
  inhabited := by
    intro group member
    rcases List.mem_append.mp member with member | member
    · exact splits.inhabited group member
    · obtain rfl := List.mem_singleton.mp member
      simp
  grouped := by
    intro group member isSome
    rcases List.mem_append.mp member with member | member
    · rw [splits.grouped group member isSome]
      have other : task.groupId ≠ group.groupId :=
        fun same => fresh (same ▸ isSome) group member same.symm
      simp [other]
    · obtain rfl := List.mem_singleton.mp member
      have none : tasks.filter (fun t => t.groupId = task.groupId) = [] := by
        apply List.filter_eq_nil_iff.mpr
        intro other inside same
        simp only [decide_eq_true_eq] at same
        obtain ⟨group, member, inside⟩ := List.mem_flatMap.mp (splits.perm.mem_iff.mpr inside)
        have groupSome : group.groupId.isSome := by
          by_contra isNone
          obtain ⟨only, _, alone, tasksSame⟩ :=
            splits.single group member (Option.not_isSome_iff_eq_none.mp isNone)
          rw [tasksSame, List.mem_singleton] at inside
          rw [← same, inside, alone] at isSome
          contradiction
        rw [splits.grouped group member groupSome] at inside
        have ownId := of_decide_eq_true (List.mem_filter.mp inside).2
        exact fresh isSome group member (ownId.symm.trans same)
      simp [none]
  single := by
    intro group member isNone
    rcases List.mem_append.mp member with member | member
    · obtain ⟨only, inside, alone, same⟩ := splits.single group member isNone
      exact ⟨only, List.mem_append_left _ inside, alone, same⟩
    · obtain rfl := List.mem_singleton.mp member
      exact ⟨task, by simp, isNone, rfl⟩
  unique := by
    rw [List.pairwise_append]
    refine ⟨splits.unique, List.pairwise_singleton _ _, ?_⟩
    intro group member last isLast isSome same
    obtain rfl := List.mem_singleton.mp isLast
    simp only at same
    exact fresh (same ▸ isSome) group member same

theorem Splits.place (splits : Splits tasks groups) (task : Task) :
    Splits (tasks ++ [task]) (place groups task) := by
  unfold TaskGroup.place
  split
  next present =>
    obtain ⟨identified, found⟩ := present
    exact splits.extend identified (by simpa using found)
  next absent =>
    apply splits.add
    intro identified group member same
    exact absent ⟨identified, by simpa using ⟨group, member, same⟩⟩

theorem partition_concat (tasks : List Task) (task : Task) :
    partition (tasks ++ [task]) = place (partition tasks) task := by
  simp [partition]

theorem partition_splits (tasks : List Task) : Splits tasks (partition tasks) := by
  induction tasks using List.reverseRecOn with
  | nil => exact ⟨.nil, by simp [partition], by simp [partition], by simp [partition], .nil⟩
  | append_singleton tasks task ih =>
    rw [partition_concat]
    exact ih.place task

/-! What follows for the members of groups. -/

theorem Splits.mem (splits : Splits tasks groups) {task : Task} :
    task ∈ tasks ↔ ∃ group ∈ groups, task ∈ group.tasks := by
  rw [← splits.perm.mem_iff, List.mem_flatMap]

theorem Splits.groupId_eq (splits : Splits tasks groups) {group : TaskGroup} {task : Task}
    (member : group ∈ groups) (inside : task ∈ group.tasks) : task.groupId = group.groupId := by
  cases isSome : group.groupId with
  | none =>
    obtain ⟨only, _, alone, same⟩ := splits.single group member isSome
    rw [same, List.mem_singleton] at inside
    exact inside ▸ alone
  | some id =>
    rw [splits.grouped group member (by simp [isSome])] at inside
    exact (of_decide_eq_true (List.mem_filter.mp inside).2).trans isSome

theorem Splits.sublist (splits : Splits tasks groups) {group : TaskGroup}
    (member : group ∈ groups) :
    group.tasks.Sublist tasks := by
  cases isSome : group.groupId with
  | none =>
    obtain ⟨only, inside, _, same⟩ := splits.single group member isSome
    rw [same]
    exact List.singleton_sublist.mpr inside
  | some id =>
    rw [splits.grouped group member (by simp [isSome])]
    exact List.filter_sublist

theorem Splits.disjoint (splits : Splits tasks groups) (distinct : tasks.Nodup) :
    groups.Pairwise (fun first second => first.tasks.Disjoint second.tasks) := by
  have flat : (groups.flatMap TaskGroup.tasks).Nodup := splits.perm.nodup_iff.mpr distinct
  exact (List.nodup_flatMap.mp flat).2

/-- No group is handed out under two guises. -/
theorem Splits.nodup (splits : Splits tasks groups) (distinct : tasks.Nodup) : groups.Nodup := by
  refine List.Pairwise.imp_of_mem ?_ (splits.disjoint distinct)
  rintro first second member _ apart rfl
  obtain ⟨task, inside⟩ := List.exists_mem_of_ne_nil _ (splits.inhabited first member)
  exact apart inside inside

theorem Splits.group_unique (splits : Splits tasks groups) (distinct : tasks.Nodup)
    {first second : TaskGroup} {task : Task} (inFirst : first ∈ groups) (inSecond : second ∈ groups)
    (left : task ∈ first.tasks) (right : task ∈ second.tasks) : first = second := by
  by_contra other
  have symmetric : Std.Symm (fun first second : TaskGroup => first.tasks.Disjoint second.tasks) :=
    ⟨fun _ _ apart => List.disjoint_symm apart⟩
  exact (splits.disjoint distinct).forall inFirst inSecond other left right

end CodeAudit.TaskGroup
