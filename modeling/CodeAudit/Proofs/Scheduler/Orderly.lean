import CodeAudit.Proofs.Scheduler.Ledger
import CodeAudit.Proofs.Scheduler.Partition
import Mathlib.Data.List.Flatten

/-! Order among all workers. A history is put together from the acts of single workers, and as no
two of them hold one group, what each does in order is done in order by all. -/
namespace CodeAudit

theorem Act.task_of_decided {act : Act} {task : Task} (looked : act.decided? = some task) :
    act.task? = some task := by
  cases act <;> first | exact looked | contradiction

theorem Act.task_of_called {act : Act} {task : Task} (called : act.called? = some task) :
    act.task? = some task := by
  cases act <;> first | exact called | contradiction

namespace History
variable {history : History} {count i : Nat} {α : Type}

theorem flatMap_range_single (only : List α) (below : i < count) :
    (List.range count).flatMap (fun j => if i = j then only else []) = only := by
  have none : ∀ bound ≤ i, (List.range bound).flatMap
      (fun j => if i = j then only else []) = [] := by
    intro bound least
    refine List.flatMap_eq_nil_iff.mpr (fun j member => if_neg ?_)
    have := List.mem_range.mp member
    omega
  induction count with
  | zero => omega
  | succ count ih =>
    rw [List.range_succ, List.flatMap_append, List.flatMap_singleton]
    rcases Nat.lt_succ_iff_lt_or_eq.mp below with below | rfl
    · rw [ih below, if_neg (by omega), List.append_nil]
    · rw [none i (Nat.le_refl i), if_pos rfl, List.nil_append]

/-- A history holds the acts of the single workers and no others. -/
theorem perm_own (known : ∀ entry ∈ history, entry.1 < count) (pick : Act → Option α) :
    (history.filterMap (fun entry => pick entry.2)).Perm
      ((List.range count).flatMap (fun i => (history.own i).filterMap pick)) := by
  induction history with
  | nil => simp [own]
  | cons entry history ih =>
    have below := known entry List.mem_cons_self
    have split : ∀ j, (own j (entry :: history)).filterMap pick =
        (if entry.1 = j then (pick entry.2).toList else []) ++ (own j history).filterMap pick := by
      intro j
      by_cases same : entry.1 = j
      · cases picked : pick entry.2 <;> simp [own, same, picked]
      · simp [own, same]
    simp only [split]
    have rest := ih (fun other member => known other (List.mem_cons_of_mem _ member))
    refine .trans ?_ (List.flatMap_append_perm _ _ _)
    rw [flatMap_range_single _ below]
    cases picked : pick entry.2 with
    | none => simpa [picked] using rest
    | some found => simpa [picked] using rest

/-- What concerns one worker alone can be read off its own acts. -/
theorem filterMap_own (pick : Act → Option α)
    (only : ∀ entry ∈ history, (pick entry.2).isSome → entry.1 = i) :
    history.filterMap (fun entry => pick entry.2) = (history.own i).filterMap pick := by
  induction history with
  | nil => rfl
  | cons entry history ih =>
    have rest := ih (fun other member => only other (List.mem_cons_of_mem _ member))
    have here := only entry List.mem_cons_self
    by_cases same : entry.1 = i
    · cases picked : pick entry.2 <;> simpa [own, same, picked] using rest
    · have unpicked : pick entry.2 = none := by
        cases picked : pick entry.2 with
        | none => rfl
        | some found => exact absurd (here (by simp [picked])) same
      simpa [own, same, unpicked] using rest

theorem own_sublist (i : Nat) (history : History) :
    (history.own i).Sublist (history.map Prod.snd) := by
  induction history with
  | nil => exact List.Sublist.slnil
  | cons entry history ih =>
    by_cases same : entry.1 = i
    · simpa [own, same] using ih
    · simpa [own, same] using ih.cons entry.2

theorem own_once (distinct : (history.fates.map (·.1.id)).Nodup) (i : Nat) :
    ((fatesOf (history.own i)).map (·.1.id)).Nodup := by
  have some := ((own_sublist i history).filterMap Act.fate?).map (·.1.id)
  rw [List.filterMap_map] at some
  exact some.nodup distinct

theorem handed_groups (history : History) :
    history.handed.map Prod.snd = groupsOf (history.map Prod.snd) := by
  induction history with
  | nil => rfl
  | cons entry history ih =>
    simp only [groupsOf] at ih ⊢
    cases taken : entry.2.group? <;> simpa [handed, taken] using ih

/-- How the groups of a run are worked off. Each goes to one worker, which alone acts on its tasks,
and looks at them in their order; a task is called for once at most, and not before the calls for
its group so far are settled. -/
structure Orderly {ε : Type} (crew : Crew ε) (groups : List TaskGroup)
    (history : History) : Prop where
  handed : history.handed.map Prod.snd <+: groups
  once : (history.handed.map Prod.snd).Nodup
  held : ∀ i act task, (i, act) ∈ history → act.task? = some task →
    ∃ group, (i, group) ∈ history.handed ∧ task ∈ group.tasks
  decided : ∀ group ∈ groups, history.decided.filter (· ∈ group.tasks) <+: group.tasks
  calls : history.called.Nodup
  called : ∀ i task summary, (i, .called task summary) ∈ history →
    task.isDone = false ∧ ∀ j verdict, (j, .judged task verdict) ∈ history → verdict = .ok true
  follows : ∀ (before : History) later i act, history = before ++ (i, act) :: later →
    Follows crew (before.own i) act
  sequenced : ∀ (before : History) later i task summary,
    history = before ++ (i, .called task summary) :: later →
    ∀ group ∈ groups, task ∈ group.tasks → ∀ j earlier told, (j, .called earlier told) ∈ before →
      earlier ∈ group.tasks → Settled (before.own i) earlier

end History

namespace WorkerPool
variable {σ τ ε : Type} [TaskStore σ τ] {crew : Crew ε} {tasks : List Task}
  {groups : List TaskGroup} {count : Nat} {history : History} {pool : WorkerPool σ ε}

theorem Stands.own (stands : Stands crew groups count history pool) {i : Nat} (below : i < count) :
    ∃ worker : Worker, pool.workers[i]? = some worker ∧ worker.Stands crew (history.own i) := by
  have found := List.getElem?_eq_getElem (stands.workers ▸ below)
  exact ⟨_, found, stands.worker i _ found⟩

theorem Stands.handed_prefix (stands : Stands crew groups count history pool) :
    history.handed.map Prod.snd <+: groups := ⟨_, stands.handed⟩

theorem Stands.held (stands : Stands crew groups count history pool) {i : Nat} {act : Act}
    {task : Task} (member : (i, act) ∈ history) (about : act.task? = some task) :
    ∃ group, (i, group) ∈ history.handed ∧ task ∈ group.tasks := by
  obtain ⟨worker, _, standing⟩ := stands.own (stands.known _ member)
  obtain ⟨group, took, inside⟩ := standing.kept act (History.mem_own.mpr member) task about
  exact ⟨group, History.mem_handed.mpr (History.mem_own.mp took), inside⟩

/-- The tasks of a group are in the hands of the worker that took it. -/
theorem Stands.holder (stands : Stands crew groups count history pool)
    (splits : TaskGroup.Splits tasks groups) (distinct : tasks.Nodup) {i : Nat} {act : Act}
    {task : Task} {group : TaskGroup} (member : (i, act) ∈ history) (about : act.task? = some task)
    (inside : task ∈ group.tasks) (known : group ∈ groups) : (i, group) ∈ history.handed := by
  obtain ⟨other, took, same⟩ := stands.held member about
  have listed := stands.handed_prefix.subset (List.mem_map_of_mem took)
  exact splits.group_unique distinct listed known same inside ▸ took

theorem Stands.once (stands : Stands crew groups count history pool) (distinct : groups.Nodup) :
    (history.handed.map Prod.snd).Nodup := stands.handed_prefix.sublist.nodup distinct

/-- Two workers do not hold one group. -/
theorem Stands.holder_unique (stands : Stands crew groups count history pool)
    (distinct : groups.Nodup) {i j : Nat} {group : TaskGroup} (first : (i, group) ∈ history.handed)
    (second : (j, group) ∈ history.handed) :
    i = j :=
  congrArg Prod.fst (List.inj_on_of_nodup_map (stands.once distinct) first second rfl)

/-- What is picked of the acts about the tasks of a group is picked of those of the worker that took
it. -/
theorem Stands.picked_own (stands : Stands crew groups count history pool)
    (splits : TaskGroup.Splits tasks groups) (distinct : tasks.Nodup) {pick : Act → Option Task}
    (about : ∀ act task, pick act = some task → act.task? = some task) {i : Nat} {group : TaskGroup}
    (took : (i, group) ∈ history.handed) :
    (history.filterMap (fun entry => pick entry.2)).filter (· ∈ group.tasks) =
      ((history.own i).filterMap pick).filter (· ∈ group.tasks) := by
  have known := stands.handed_prefix.subset (List.mem_map_of_mem took)
  simp only [List.filter_filterMap]
  refine History.filterMap_own (fun act => (pick act).filter (· ∈ group.tasks))
    (fun entry member picked => ?_)
  obtain ⟨task, picked⟩ := Option.isSome_iff_exists.mp picked
  obtain ⟨meant, inside⟩ := Option.filter_eq_some_iff.mp picked
  have holds := stands.holder splits distinct member (about _ _ meant)
    (of_decide_eq_true inside) known
  exact stands.holder_unique (splits.nodup distinct) holds took

/-- Nobody acts on the tasks of a group that nobody took. -/
theorem Stands.picked_untaken (stands : Stands crew groups count history pool)
    (splits : TaskGroup.Splits tasks groups) (distinct : tasks.Nodup) {pick : Act → Option Task}
    (about : ∀ act task, pick act = some task → act.task? = some task) {group : TaskGroup}
    (known : group ∈ groups) (untaken : ∀ i, (i, group) ∉ history.handed) :
    (history.filterMap (fun entry => pick entry.2)).filter (· ∈ group.tasks) = [] := by
  refine List.filter_eq_nil_iff.mpr (fun task picked inside => ?_)
  obtain ⟨⟨i, act⟩, member, picked⟩ := List.mem_filterMap.mp picked
  exact untaken i (stands.holder splits distinct member (about _ _ picked)
    (of_decide_eq_true inside) known)

/-- Only the worker that took a group looks at its tasks. -/
theorem Stands.decided_own (stands : Stands crew groups count history pool)
    (splits : TaskGroup.Splits tasks groups) (distinct : tasks.Nodup) {i : Nat} {group : TaskGroup}
    (took : (i, group) ∈ history.handed) :
    history.decided.filter (· ∈ group.tasks) =
      ((history.own i).filterMap Act.decided?).filter (· ∈ group.tasks) :=
  stands.picked_own splits distinct (fun _ _ => Act.task_of_decided) took

/-- Of disjoint groups one after another, one is left when only its tasks are. -/
theorem filter_flatMap_group {some : List TaskGroup} {group : TaskGroup}
    (apart : some.Pairwise (fun first second => first.tasks.Disjoint second.tasks))
    (member : group ∈ some) :
    (some.flatMap TaskGroup.tasks).filter (· ∈ group.tasks) = group.tasks := by
  induction some with
  | nil => contradiction
  | cons first rest ih =>
    obtain ⟨others, apart⟩ := List.pairwise_cons.mp apart
    rw [List.flatMap_cons, List.filter_append]
    rcases List.mem_cons.mp member with rfl | member
    · have own : group.tasks.filter (· ∈ group.tasks) = group.tasks :=
        List.filter_eq_self.mpr (by simp)
      have none : (rest.flatMap TaskGroup.tasks).filter (· ∈ group.tasks) = [] := by
        refine List.filter_eq_nil_iff.mpr (fun task inside here => ?_)
        obtain ⟨other, member, inside⟩ := List.mem_flatMap.mp inside
        exact others other member (of_decide_eq_true here) inside
      rw [own, none, List.append_nil]
    · have none : first.tasks.filter (· ∈ group.tasks) = [] := by
        refine List.filter_eq_nil_iff.mpr (fun task inside here => ?_)
        exact others group member inside (of_decide_eq_true here)
      rw [none, ih apart member, List.nil_append]

/-- The groups that one worker took are among those handed out. -/
theorem Stands.groups_sublist (stands : Stands crew groups count history pool) (i : Nat) :
    (groupsOf (history.own i)).Sublist groups := by
  refine ((History.own_sublist i history).filterMap Act.group?).trans ?_
  have listed := stands.handed_prefix.sublist
  rwa [History.handed_groups] at listed

theorem Stands.decided_group (stands : Stands crew groups count history pool)
    (decides : crew.Decides) (splits : TaskGroup.Splits tasks groups) (distinct : tasks.Nodup)
    {group : TaskGroup} (known : group ∈ groups) :
    history.decided.filter (· ∈ group.tasks) <+: group.tasks := by
  by_cases taken : ∃ i, (i, group) ∈ history.handed
  · obtain ⟨i, took⟩ := taken
    have held : (i, .took group) ∈ history := History.mem_handed.mp took
    obtain ⟨worker, _, standing⟩ := stands.own (stands.known _ held)
    have listed : group ∈ groupsOf (history.own i) :=
      List.mem_filterMap.mpr ⟨_, History.mem_own.mpr held, rfl⟩
    have apart := (splits.disjoint distinct).sublist (stands.groups_sublist i)
    rw [stands.decided_own splits distinct took]
    conv_rhs => rw [← filter_flatMap_group apart listed]
    exact (standing.decided decides).filter _
  · have none : history.decided.filter (· ∈ group.tasks) = [] :=
      stands.picked_untaken splits distinct (fun _ _ => Act.task_of_decided) known
        (not_exists.mp taken)
    rw [none]
    exact List.nil_prefix

/-- All workers together look at no task more often than it is listed. -/
theorem Stands.decided_subperm (stands : Stands crew groups count history pool)
    (splits : TaskGroup.Splits tasks groups) :
    ((List.range count).flatMap (fun i => (history.own i).filterMap Act.decided?)).Subperm
      tasks := by
  have inGroups :
    ((List.range count).flatMap (fun i => (history.own i).filterMap Act.decided?)).Sublist
      ((List.range count).flatMap
        (fun i => (groupsOf (history.own i)).flatMap TaskGroup.tasks)) := by
    refine List.Sublist.flatMap_right _ (fun i member => ?_)
    obtain ⟨worker, _, standing⟩ := stands.own (List.mem_range.mp member)
    exact standing.decided_sublist
  refine inGroups.subperm.trans ?_
  rw [← List.flatMap_assoc]
  have taken := (History.perm_own stands.known Act.group?).symm.flatMap_right TaskGroup.tasks
  have listed := stands.handed_prefix.sublist
  rw [History.handed_groups, groupsOf, List.filterMap_map] at listed
  exact taken.subperm.trans ((listed.flatMap TaskGroup.tasks).subperm.trans splits.perm.subperm)

/-- All workers together look at a task once at most. -/
theorem Stands.decided_nodup (stands : Stands crew groups count history pool)
    (splits : TaskGroup.Splits tasks groups) (distinct : tasks.Nodup) :
    ((List.range count).flatMap (fun i => (history.own i).filterMap Act.decided?)).Nodup := by
  obtain ⟨some, same, part⟩ := stands.decided_subperm splits
  exact same.nodup_iff.mp (part.nodup distinct)

theorem Stands.looked_once (stands : Stands crew groups count history pool)
    (splits : TaskGroup.Splits tasks groups) (distinct : tasks.Nodup) : history.decided.Nodup :=
  (History.perm_own stands.known Act.decided?).nodup_iff.mpr (stands.decided_nodup splits distinct)

theorem Stands.called_once (stands : Stands crew groups count history pool)
    (splits : TaskGroup.Splits tasks groups) (distinct : tasks.Nodup) : history.called.Nodup := by
  refine (History.perm_own stands.known Act.called?).nodup_iff.mpr (List.Sublist.nodup ?_
    (stands.decided_nodup splits distinct))
  refine List.Sublist.flatMap_right _ (fun i member => ?_)
  obtain ⟨worker, _, standing⟩ := stands.own (List.mem_range.mp member)
  exact standing.calls

theorem Stands.follows (stands : Stands crew groups count history pool) {before later : History}
    {i : Nat} {act : Act} (split : history = before ++ (i, act) :: later) :
    Follows crew (before.own i) act := by
  have member : (i, act) ∈ history := split ▸ List.mem_append_right _ List.mem_cons_self
  obtain ⟨worker, _, standing⟩ := stands.own (stands.known _ member)
  refine standing.proper (before.own i) act ⟨later.own i, ?_⟩
  rw [split, History.own_append, List.append_assoc]
  simp [History.own]

/-- No task meets two fates. -/
theorem Stands.fates_once (stands : Stands crew groups count history pool)
    (splits : TaskGroup.Splits tasks groups) (distinct : tasks.Nodup) :
    (history.fates.map Prod.fst).Nodup := by
  refine ((History.perm_own stands.known Act.fate?).map Prod.fst).nodup_iff.mpr
    (List.Sublist.nodup ?_
    (stands.decided_nodup splits distinct))
  rw [List.map_flatMap]
  refine List.Sublist.flatMap_right _ (fun i member => ?_)
  obtain ⟨worker, _, standing⟩ := stands.own (List.mem_range.mp member)
  exact standing.fates_sublist

/-- A task that was called for got no other judgement than the one that let it pass. -/
theorem Stands.called (stands : Stands crew groups count history pool)
    (splits : TaskGroup.Splits tasks groups) (distinct : tasks.Nodup) {i j : Nat} {task : Task}
    {summary : Option Text} {verdict : Except Fault Bool}
    (called : (i, .called task summary) ∈ history) (judged : (j, .judged task verdict) ∈ history) :
    task.isDone = false ∧ verdict = .ok true := by
  obtain ⟨before, later, split⟩ := List.append_of_mem called
  obtain ⟨undone, passed, _, _⟩ := stands.follows split
  refine ⟨undone, ?_⟩
  have accepted : (i, .judged task (.ok true)) ∈ history :=
    split ▸ List.mem_append_left _ (History.mem_own.mp passed)
  by_contra other
  have apart := List.pairwise_filterMap.mp (stands.looked_once splits distinct)
  have symmetric : Std.Symm (fun first second : Nat × Act =>
      ∀ one, first.2.decided? = some one → ∀ two, second.2.decided? = some two → one ≠ two) :=
    ⟨fun _ _ differ one left two right => (differ two right one left).symm⟩
  refine apart.forall accepted judged ?_ task rfl task rfl rfl
  intro same
  simp only [Prod.mk.injEq, Act.judged.injEq, true_and] at same
  exact other same.2.symm

theorem Stands.sequenced (stands : Stands crew groups count history pool)
    (splits : TaskGroup.Splits tasks groups) (distinct : tasks.Nodup) {before later : History}
    {i j : Nat} {task earlier : Task} {summary told : Option Text} {group : TaskGroup}
    (split : history = before ++ (i, .called task summary) :: later) (known : group ∈ groups)
    (inside : task ∈ group.tasks) (called : (j, .called earlier told) ∈ before)
    (alike : earlier ∈ group.tasks) :
    Settled (before.own i) earlier := by
  obtain ⟨_, _, quiet, _⟩ := stands.follows split
  have here : (i, .called task summary) ∈ history :=
    split ▸ List.mem_append_right _ List.mem_cons_self
  have there : (j, .called earlier told) ∈ history := split ▸ List.mem_append_left _ called
  have holds := stands.holder splits distinct here rfl inside known
  have held := stands.holder splits distinct there rfl alike known
  obtain rfl := stands.holder_unique (splits.nodup distinct) holds held
  exact quiet earlier told (History.mem_own.mpr called)

theorem Stands.orderly (stands : Stands crew groups count history pool) (decides : crew.Decides)
    (splits : TaskGroup.Splits tasks groups) (distinct : tasks.Nodup) :
    history.Orderly crew groups where
  handed := stands.handed_prefix
  once := stands.once (splits.nodup distinct)
  held := fun _ _ _ member about => stands.held member about
  decided := fun _ known => stands.decided_group decides splits distinct known
  calls := stands.called_once splits distinct
  called := by
    intro i task summary called
    obtain ⟨before, later, split⟩ := List.append_of_mem called
    exact ⟨(stands.follows split).1, fun _ _ judged =>
      (stands.called splits distinct called judged).2⟩
  follows := fun _ _ _ _ split => stands.follows split
  sequenced := fun _ _ _ _ _ split _ known inside _ _ _ called alike =>
    stands.sequenced splits distinct split known inside called alike

end WorkerPool
end CodeAudit
