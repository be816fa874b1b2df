import CodeAudit.Proofs.Scheduler.Series
import CodeAudit.Proofs.Store.Atomicity

/-! The order in which tasks are listed and executed. A store lists tasks by id, the table by signed
id, so that ids on both sides of the sign come in another order there; the tasks of a group are
called for in the order of the list. -/
namespace CodeAudit

open TaskStore

namespace Task

/-- In increasing order of unsigned ids. -/
def Ascending (tasks : List Task) : Prop :=
  tasks.Pairwise (fun first second => first.id < second.id)

instance (tasks : List Task) : Decidable (Ascending tasks) :=
  inferInstanceAs (Decidable (List.Pairwise _ _))

/-- As signed numbers, all ids are negative or none is. -/
def OneSided (tasks : List Task) : Prop :=
  ∀ first ∈ tasks, ∀ second ∈ tasks, first.id.toNat < 2 ^ 63 ↔ second.id.toNat < 2 ^ 63

end Task

namespace Backend
variable {backend : Backend} {rows tasks : List Task}

theorem Tidy.sublist (tidy : backend.Tidy rows) (sub : tasks.Sublist rows) :
    backend.Tidy tasks := by
  cases backend with
  | memory => exact List.Pairwise.sublist sub tidy
  | table =>
    exact ⟨.sublist sub (TaskTable.Tidy.ordered tidy), fun row member =>
      tidy.kept row (sub.subset member)⟩

/-- The order of signed ids is that of unsigned ones just if the ids stay on one side. -/
theorem Tidy.ascending_iff (tidy : backend.Tidy tasks) :
    Task.Ascending tasks ↔ (backend = .table → Task.OneSided tasks) := by
  cases backend with
  | memory => exact iff_of_true tidy nofun
  | table =>
    constructor
    · intro ascending _
      have symmetric : Std.Symm (fun first second : Task => first.id.toNat < 2 ^ 63 ↔
          second.id.toNat < 2 ^ 63) :=
        ⟨fun _ _ same => same.symm⟩
      refine List.Pairwise.forall_of_forall (fun _ _ => Iff.rfl) ?_
      exact ascending.imp₂ (fun _ _ below signed => (lt_iff_same_side signed).mp below)
        (TaskTable.Tidy.ordered tidy)
    · intro oneSided
      refine List.Pairwise.imp_of_mem ?_ (TaskTable.Tidy.ordered tidy)
      intro first second inside also below
      exact (lt_iff_same_side below).mpr (oneSided rfl first inside second also)

/-! ### What a handle lists -/

variable {store : backend.Store} {handles : List backend.Handle} {handle : backend.Handle}

/-- The rows that a handle sees are as tidy as those that are stored. -/
theorem seen_tidy (evolves : Evolves backend.empty handles store) (member : handle ∈ handles) :
    ∃ seen, backend.Tidy seen ∧ ∀ text, (ofProject text handle store).value.Sublist seen ∧
      (doneInGroup text handle store).value.Sublist seen := by
  cases backend with
  | memory =>
    have initial : MemoryStore.Tidy (MemoryStore.committed (empty .memory)).tasks :=
      List.Pairwise.nil
    refine ⟨_, (evolves.keeps MemoryStore.keeps_tidy initial).2 handle member, ?_⟩
    intro text
    constructor
    · exact List.filter_sublist
    · exact List.filter_sublist
  | table =>
    refine ⟨_, evolves_tidy evolves, ?_⟩
    intro text
    have listed (query : TaskTable → List Task) (part : ∀ table, (query table).Sublist table.rows) :
        (TableStore.listing store query).value.Sublist (rows store) := by
      cases present : Connection.contents store with
      | none =>
        simp only [TableStore.listing, present]
        exact List.nil_sublist _
      | some table =>
        have same : rows store = table.rows := TableStore.rows_some present
        simp only [TableStore.listing, present, same]
        exact part table
    constructor
    · exact listed _ (fun table => List.filter_sublist)
    · exact listed _ (fun table => List.filter_sublist)

end Backend

namespace WorkerPool
variable {σ τ ε : Type} [TaskStore σ τ] {crew : Crew ε} {tasks : List Task}
  {groups : List TaskGroup} {count : Nat} {history : History} {pool : WorkerPool σ ε}
  {group : TaskGroup}

/-- The tasks of a group are called for in their order, some of them perhaps not at all. -/
theorem Stands.called_group (stands : Stands crew groups count history pool)
    (splits : TaskGroup.Splits tasks groups) (distinct : tasks.Nodup) (known : group ∈ groups) :
    (history.called.filter (· ∈ group.tasks)).Sublist group.tasks := by
  by_cases taken : ∃ i, (i, group) ∈ history.handed
  · obtain ⟨i, took⟩ := taken
    have held : (i, .took group) ∈ history := History.mem_handed.mp took
    obtain ⟨worker, _, standing⟩ := stands.own (stands.known _ held)
    have listed : group ∈ groupsOf (history.own i) :=
      List.mem_filterMap.mpr ⟨_, History.mem_own.mpr held, rfl⟩
    have apart := (splits.disjoint distinct).sublist (stands.groups_sublist i)
    rw [History.called, stands.picked_own splits distinct (fun _ _ => Act.task_of_called) took]
    conv_rhs => rw [← filter_flatMap_group apart listed]
    exact (standing.calls.trans standing.decided_sublist).filter _
  · rw [History.called, stands.picked_untaken splits distinct (fun _ _ => Act.task_of_called) known
      (not_exists.mp taken)]
    exact List.nil_sublist _

end WorkerPool
namespace Scheduler
variable {ε : Type} {backend : Backend} {store : backend.Store} {handles : List backend.Handle}

/-- Whatever transactions have made of a store, every handle lists tasks in increasing order of ids,
and the tasks of a group come to the scheduler and are executed in that order. The table does so for
ids that are all on one side of the sign. -/
theorem tasks_in_id_order (evolves : Evolves backend.empty handles store) :
    (∀ handle ∈ handles, ∀ text,
      (Task.Ascending (ofProject text handle store).value ↔
        (backend = .table → Task.OneSided (ofProject text handle store).value)) ∧
      (Task.Ascending (doneInGroup text handle store).value ↔
        (backend = .table → Task.OneSided (doneInGroup text handle store).value))) ∧
    ∀ project,
      ∀ group ∈ TaskGroup.partition ((rows store).filter
        (·.projectId = keep backend.Store project)),
      (Task.Ascending group.tasks ↔ (backend = .table → Task.OneSided group.tasks)) ∧
      ∀ (scheduler : Scheduler ε) filter mishap env history answer stored outside,
        scheduler.ProjectRuns filter Unreliable.Drifts project ⟨store, mishap⟩ env history answer
          stored outside →
        (backend = .table → Task.OneSided group.tasks) →
          Task.Ascending (history.called.filter (· ∈ group.tasks)) := by
  constructor
  · intro handle member text
    obtain ⟨seen, tidy, listed⟩ := Backend.seen_tidy evolves member
    exact ⟨(tidy.sublist (listed text).1).ascending_iff,
      (tidy.sublist (listed text).2).ascending_iff⟩
  · intro project group known
    have tidy := Backend.evolves_tidy evolves
    have splits :=
      TaskGroup.partition_splits ((rows store).filter (·.projectId = keep backend.Store project))
    have ordered : Task.Ascending group.tasks ↔ (backend = .table → Task.OneSided group.tasks) :=
      (tidy.sublist ((splits.sublist known).trans List.filter_sublist)).ascending_iff
    refine ⟨ordered, ?_⟩
    intro scheduler filter mishap env history answer stored outside runs oneSided
    rcases runs.begins with ⟨_, rfl, _⟩ | ⟨_, runs⟩
    · exact List.Pairwise.nil
    · obtain ⟨pool, path, _⟩ := runs.reached
      have distinct : ((rows store).filter (·.projectId = keep backend.Store project)).Nodup :=
        (List.Nodup.of_map _ tidy.distinct).filter _
      exact (ordered.mpr oneSided).sublist (path.stands.called_group splits distinct known)

def grouped (id : UInt64) (uuid : String) : Task :=
  { Backend.draft id uuid with groupId := some (utf8 "g") }

/-- The greater id is given first. -/
theorem tasks_in_id_order_pair :
    let stored : TableStore :=
      { contents := some { rows := [grouped 1 "b", grouped 2 "a"], sequence := 2 } }
    let handle : Connection.Handle := { stage := .committed }
    (ofProject [] handle stored).value = [grouped 1 "b", grouped 2 "a"] ∧
      Task.Ascending (ofProject [] handle stored).value ∧
      ∃ history answer after outside,
        pairScheduler.ProjectRuns none Unreliable.Drifts [] (⟨stored, {}⟩ : Unreliable TableStore)
          () history answer
          after outside ∧
        Task.Ascending (history.called.filter (· ∈ [grouped 1 "b", grouped 2 "a"])) := by
  intro stored handle
  have begun : Evolves (Backend.empty .table) [({} : Connection.Handle)]
      ({ contents := some {}, restore := some (some {}) } : TableStore) := .begin .start rfl
  have first := begun.inserted List.mem_cons_self ⟨[], 1⟩ (grouped 2 "a")
  have second := first.inserted List.mem_cons_self ⟨[], 1⟩ (grouped 1 "b")
  have committed : Evolves (Backend.empty .table) [handle, {}, {}, {}] stored :=
    .commit second List.mem_cons_self rfl
  obtain ⟨listed, executed⟩ := @tasks_in_id_order Unit _ _ _ committed
  have oneSided : Task.OneSided [grouped 1 "b", grouped 2 "a"] := by
    unfold Task.OneSided
    decide
  obtain ⟨history, runs⟩ :=
    runProject_runs pairScheduler none (⟨stored, {}⟩ : Unreliable TableStore) () []
  have widened := runs.widen Unreliable.Drifts (fun _ _ => False.elim)
  refine ⟨rfl, (listed handle List.mem_cons_self []).1.mpr (fun _ => oneSided), history, _, _, _,
    widened, ?_⟩
  have group : ⟨some (utf8 "g"), [grouped 1 "b", grouped 2 "a"]⟩ ∈
      TaskGroup.partition ((rows stored).filter (·.projectId = [])) := by decide
  exact (executed [] _ group).2 _ _ _ _ _ _ _ _ widened (fun _ => oneSided)

/-- An id past the largest signed number comes before the others, in listings and in its group. -/
theorem past_sign_first :
    let one : Task := { grouped 1 "a" with result := utf8 "done" }
    let other : Task := { grouped 9223372036854775808 "b" with result := utf8 "done" }
    let store : TableStore :=
      { contents := some { rows := [other, one], sequence := 1 }, restore := some (some {}) }
    let handle : Connection.Handle := {}
    Evolves (Backend.empty .table) [handle, handle, handle] store ∧
      (ofProject [] handle store).value = [other, one] ∧
        (doneInGroup (utf8 "g") handle store).value = [other, one] ∧
      TaskGroup.partition (rows store) = [⟨some (utf8 "g"), [other, one]⟩] ∧
        ¬Task.Ascending [other, one] := by
  intro one other store handle
  have begun : Evolves (Backend.empty .table) [handle]
      ({ contents := some {}, restore := some (some {}) } : TableStore) := .begin .start rfl
  have first := begun.inserted List.mem_cons_self ⟨[], 1⟩ one
  have second := first.inserted List.mem_cons_self ⟨[], 1⟩ other
  exact ⟨second, rfl, rfl, rfl, by decide⟩

end Scheduler
end CodeAudit
