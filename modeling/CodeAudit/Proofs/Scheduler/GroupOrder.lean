import CodeAudit.Proofs.Scheduler.Partition

/-! Partitioning in full. The groups of a list of tasks are known from the list alone: which tasks
each of them holds, and that they stand in the order in which the list comes to their first
tasks. -/
namespace CodeAudit.TaskGroup

/-- A group begins at a position: there stands its first task, and no earlier task has its id. -/
structure BeginsAt (tasks : List Task) (i : Nat) (group : TaskGroup) : Prop where
  first : ∃ task, tasks[i]? = some task ∧ group.tasks.head? = some task
  fresh : group.groupId.isSome → ∀ earlier ∈ tasks.take i, earlier.groupId ≠ group.groupId

structure Arranges (tasks : List Task) (groups : List TaskGroup) : Prop where
  perm : (groups.flatMap TaskGroup.tasks).Perm tasks
  inhabited : ∀ group ∈ groups, group.tasks ≠ []
  /-- The empty id is an id like any other. -/
  grouped : ∀ id, (∃ task ∈ tasks, task.groupId = some id) →
    groups.filter (fun g => g.groupId = some id) =
      [{ groupId := some id, tasks := tasks.filter (fun t => t.groupId = some id) }]
  alone : groups.filter (fun g => g.groupId = none) =
    (tasks.filter (fun t => t.groupId = none)).map (fun t => { groupId := none, tasks := [t] })
  ordered : ∃ positions : List Nat, positions.Pairwise (· < ·) ∧
    List.Forall₂ (BeginsAt tasks) positions groups

variable {tasks : List Task} {groups : List TaskGroup} {group : TaskGroup} {task : Task} {i : Nat}
  {id : Text}

/-- A task joins the group with its id, or begins a group at the end. -/
theorem place_cases (groups : List TaskGroup) (task : Task) :
    (task.groupId.isSome ∧ (∃ group ∈ groups, group.groupId = task.groupId) ∧
      place groups task = groups.map (extend task)) ∨
    ((task.groupId.isSome → ∀ group ∈ groups, group.groupId ≠ task.groupId) ∧
      place groups task = groups ++ [{ groupId := task.groupId, tasks := [task] }]) := by
  unfold place
  split
  next present =>
    obtain ⟨identified, found⟩ := present
    exact .inl ⟨identified, by simpa using found, rfl⟩
  next absent =>
    refine .inr ⟨fun identified group member same => ?_, rfl⟩
    exact absent ⟨identified, by simpa using ⟨group, member, same⟩⟩

/-! ### Groups with an id -/

theorem Splits.filter_group (splits : Splits tasks groups)
    (present : ∃ task ∈ tasks, task.groupId = some id) :
    groups.filter (fun g => g.groupId = some id) =
      [{ groupId := some id, tasks := tasks.filter (fun t => t.groupId = some id) }] := by
  obtain ⟨task, listed, own⟩ := present
  obtain ⟨group, member, inside⟩ := splits.mem.mp listed
  have named : group.groupId = some id := (splits.groupId_eq member inside).symm.trans own
  have tasksSame := splits.grouped group member (by simp [named])
  obtain ⟨before, after, rfl⟩ := List.append_of_mem member
  obtain ⟨_, later, apart⟩ := List.pairwise_append.mp splits.unique
  have noneBefore : before.filter (fun g => g.groupId = some id) = [] := by
    refine List.filter_eq_nil_iff.mpr (fun other early same => ?_)
    have same := of_decide_eq_true same
    exact apart other early group List.mem_cons_self (by simp [same]) (same.trans named.symm)
  have noneAfter : after.filter (fun g => g.groupId = some id) = [] := by
    refine List.filter_eq_nil_iff.mpr (fun other late same => ?_)
    exact (List.pairwise_cons.mp later).1 other late (by simp [named])
      (named.trans (of_decide_eq_true same).symm)
  rw [List.filter_append, noneBefore, List.filter_cons, if_pos (decide_eq_true named), noneAfter,
    List.nil_append]
  obtain ⟨groupId, held⟩ := group
  obtain rfl : groupId = some id := named
  exact congrArg (fun held => [({ groupId := some id, tasks := held } : TaskGroup)]) tasksSame

/-! ### Groups without an id -/

theorem filter_alone_extend (identified : task.groupId.isSome) :
    (groups.map (extend task)).filter (fun g => g.groupId = none) =
      groups.filter (fun g => g.groupId = none) := by
  simp only [List.filter_map, Function.comp_def, extend_groupId]
  refine (List.map_congr_left (fun group member => ?_)).trans (List.map_id _)
  have single : group.groupId = none := of_decide_eq_true (List.mem_filter.mp member).2
  exact extend_other (fun own => by rw [← own, single] at identified; contradiction)

/-- The tasks without an id are groups of their own, in their order. -/
theorem filter_alone (tasks : List Task) :
    (partition tasks).filter (fun g => g.groupId = none) =
      (tasks.filter (fun t => t.groupId = none)).map
        (fun t => { groupId := none, tasks := [t] }) := by
  induction tasks using List.reverseRecOn with
  | nil => rfl
  | append_singleton tasks task ih =>
    rw [partition_concat, List.filter_append, List.map_append]
    rcases place_cases (partition tasks) task with ⟨identified, _, placed⟩ | ⟨_, placed⟩
    · rw [placed, filter_alone_extend identified, ih]
      have other : ¬task.groupId = none := Option.isSome_iff_ne_none.mp identified
      simp [other]
    · rw [placed, List.filter_append, ih]
      by_cases alone : task.groupId = none <;> simp [alone]

/-! ### The order of the groups -/

theorem BeginsAt.lt (begins : BeginsAt tasks i group) : i < tasks.length := by
  obtain ⟨task, found, _⟩ := begins.first
  exact (List.getElem?_eq_some_iff.mp found).1

/-- A further task does not change where a group begins, whether the group takes it in or not. -/
theorem BeginsAt.concat (begins : BeginsAt tasks i group) (task : Task) :
    BeginsAt (tasks ++ [task]) i group := by
  have inside := begins.lt
  obtain ⟨⟨first, found, head⟩, fresh⟩ := begins
  refine ⟨⟨first, by rw [List.getElem?_append_left inside, found], head⟩, fun isSome => ?_⟩
  rw [List.take_append_of_le_length (Nat.le_of_lt inside)]
  exact fresh isSome

theorem BeginsAt.extend (begins : BeginsAt tasks i group) (task : Task) :
    BeginsAt tasks i (extend task group) := by
  obtain ⟨⟨first, found, head⟩, fresh⟩ := begins
  refine ⟨⟨first, found, ?_⟩, by simpa only [extend_groupId] using fresh⟩
  by_cases own : group.groupId = task.groupId
  · rw [extend_own own, List.head?_append, head, Option.some_or]
  · rw [extend_other own, head]

theorem beginsAt_end (splits : Splits tasks groups)
    (fresh : task.groupId.isSome → ∀ group ∈ groups, group.groupId ≠ task.groupId) :
    BeginsAt (tasks ++ [task]) tasks.length { groupId := task.groupId, tasks := [task] } := by
  refine ⟨⟨task, List.getElem?_concat_length, rfl⟩, fun isSome earlier before same => ?_⟩
  rw [List.take_left] at before
  obtain ⟨group, member, inside⟩ := splits.mem.mp before
  exact fresh isSome group member ((splits.groupId_eq member inside).symm.trans same)

/-- The groups stand in the order in which the list comes to their first tasks. -/
theorem partition_ordered (tasks : List Task) :
    ∃ positions : List Nat, positions.Pairwise (· < ·) ∧
      List.Forall₂ (BeginsAt tasks) positions (partition tasks) := by
  induction tasks using List.reverseRecOn with
  | nil => exact ⟨[], .nil, .nil⟩
  | append_singleton tasks task ih =>
    obtain ⟨positions, ascending, begins⟩ := ih
    rw [partition_concat]
    rcases place_cases (partition tasks) task with ⟨_, _, placed⟩ | ⟨fresh, placed⟩
    · refine ⟨positions, ascending, placed ▸ List.forall₂_map_right_iff.mpr ?_⟩
      exact begins.imp (fun _ _ begins => (begins.concat task).extend task)
    · have inside : ∀ i ∈ positions, i < tasks.length :=
        ((List.forall₂_and_left _ _).mp (begins.imp (fun _ _ begins => ⟨begins.lt, begins⟩))).1
      refine ⟨positions ++ [tasks.length],
        List.pairwise_append.mpr ⟨ascending, List.pairwise_singleton _ _, ?_⟩, ?_⟩
      · intro i listed last isLast
        exact List.mem_singleton.mp isLast ▸ inside i listed
      · rw [placed]
        refine List.rel_append (begins.imp (fun _ _ begins => begins.concat task)) ?_
        exact .cons (beginsAt_end (partition_splits tasks) fresh) .nil

/-- Partitioning loses no task, brings none twice and changes no order but where tasks of one id are
brought together. -/
theorem partition_arranges (tasks : List Task) : Arranges tasks (partition tasks) where
  perm := (partition_splits tasks).perm
  inhabited := (partition_splits tasks).inhabited
  grouped := fun _ present => (partition_splits tasks).filter_group present
  alone := filter_alone tasks
  ordered := partition_ordered tasks

/-- A task without an id stays out of the group of the empty id. -/
example :
    (partition [{ id := 1 }, { id := 2, groupId := some [] }, { id := 3 },
    { id := 4, groupId := some [] }]).map
    (fun group => (group.groupId, group.tasks.map Task.id)) =
      [(none, [1]), (some [], [2, 4]), (none, [3])] := by
  decide

end CodeAudit.TaskGroup
