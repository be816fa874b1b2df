import CodeAudit.Proofs.Store.Correspondence
import CodeAudit.Proofs.Store.Service

/-! The uuids of stored tasks. The table has a constraint on them. The store in memory keeps them
apart only as far as those who insert do. -/
namespace CodeAudit

open TaskStore

/-- Results and records are written, uuids are not. -/
theorem Task.uuid_write (rows : List Task) (column : Column) (id : UInt64) (value : Text) :
    (rows.map (fun row => if row.id = id then row.write column value else row)).map Task.uuid =
      rows.map Task.uuid := by
  rw [List.map_map]
  refine List.map_congr_left (fun row _ => ?_)
  simp only [Function.comp_apply]
  split
  · cases column <;> rfl
  · rfl

namespace MemoryStore

theorem place_uuids {task : Task} {rows : List Task} (distinct : (rows.map Task.uuid).Nodup)
    (unused : task.uuid ∉ rows.map Task.uuid) :
    ((Contents.place task rows).map Task.uuid).Nodup := by
  induction rows with
  | nil => exact List.nodup_cons.mpr ⟨unused, distinct⟩
  | cons first rest ih =>
    obtain ⟨own, tail⟩ := List.nodup_cons.mp distinct
    have other := List.ne_of_not_mem_cons unused
    have beyond := List.not_mem_of_not_mem_cons unused
    simp only [Contents.place]
    split
    · exact List.nodup_cons.mpr ⟨unused, distinct⟩
    · split
      · exact List.nodup_cons.mpr ⟨beyond, tail⟩
      · refine List.nodup_cons.mpr ⟨fun member => ?_, ih tail beyond⟩
        obtain ⟨row, placed, same⟩ := List.mem_map.mp member
        rcases mem_place placed with rfl | inside
        · exact other same
        · exact own (List.mem_map.mpr ⟨row, inside, same⟩)

namespace Contents
variable {contents : Contents} {fresh : Fresh} {task : Task}

def Distinct (contents : Contents) : Prop := (contents.tasks.map Task.uuid).Nodup

theorem insert_refused (own : task.id ≠ 0) (taken : task.id ∈ contents.tasks.map Task.id) :
    contents.insert fresh task = ({ status := .error (.taken task.id), task }, contents) := by
  obtain ⟨row, member, same⟩ := List.mem_map.mp taken
  exact insert_taken own (List.find?_isSome.mpr ⟨row, member, decide_eq_true same⟩)

theorem Distinct.insert (distinct : contents.Distinct)
    (minded : (task.id ≠ 0 ∧ task.id ∈ contents.tasks.map Task.id) ∨
      (task.fill fresh).uuid ∉ contents.tasks.map Task.uuid) :
      (contents.insert fresh task).2.Distinct := by
  rcases minded with ⟨own, taken⟩ | unused
  · rw [insert_refused own taken]
    exact distinct
  · unfold Contents.insert
    split
    · exact distinct
    · exact place_uuids distinct unused

theorem Distinct.write (distinct : contents.Distinct) (column : Task.Column) (id : UInt64)
    (value : Text) :
    (contents.write column id value).2.Distinct := by
  unfold Contents.write
  split
  · exact distinct
  · unfold Distinct
    rw [Task.uuid_write]
    exact distinct

end Contents

theorem turn_taken {service : Service MemoryStore Handle} {i : Nat} {lease : Lease Handle}
    {fresh : Fresh} {task : Task} (found : service.lease? i = some lease) (own : task.id ≠ 0)
    (taken : task.id ∈ lease.handle.contents.tasks.map Task.id) :
    service.turn (.ask i (.step fresh (.insert task))) =
      (.stepped (.inserted { status := .error (.taken task.id), task }), service) := by
  rw [Service.turn_ask found]
  simp only [Action.act, perform, TaskStore.insert, Contents.insert_refused own taken,
    Service.set_lease found]

end MemoryStore

namespace TaskTable
variable {table changed : TaskTable} {row : Task}

theorem insertRow_uuids (distinct : (table.rows.map Task.uuid).Nodup)
    (inserted : table.insertRow row = .ok changed) :
    (changed.rows.map Task.uuid).Nodup := by
  unfold insertRow at inserted
  split at inserted
  · cases inserted
  · split at inserted
    · cases inserted
    next unique =>
      obtain rfl := Except.ok.inj inserted
      have unused : row.uuid ∉ table.rows.map Task.uuid := by simpa using unique
      exact ((place_perm row table.rows).map Task.uuid).nodup_iff.mpr
        (List.nodup_cons.mpr ⟨unused, distinct⟩)

theorem insertRow_repeated (held : row.uuid ∈ table.rows.map Task.uuid) :
    ∃ column, table.insertRow row = .error (.repeated column) := by
  have repeated : table.rows.any (fun other => other.uuid = row.uuid) := by simpa using held
  unfold insertRow
  rw [if_pos repeated]
  split
  · exact ⟨_, rfl⟩
  · exact ⟨_, rfl⟩

end TaskTable

namespace TableStore
variable {store : TableStore} {fresh : Fresh} {task : Task}

/-- The table is there and may be written to, and no two of its rows share a uuid. -/
def Constrained (store : TableStore) : Prop :=
  store.refusesWrites = false ∧ ∃ table, store.contents = some table ∧
    (table.rows.map Task.uuid).Nodup

theorem keeps_constrained : Keeps (Holds Constrained) (fun _ : Connection.Handle => True) := by
  refine keeps_holds (fun known free fresh step => ?_)
  obtain ⟨writes, table, contents, distinct⟩ := known
  rcases apply_cases fresh step free with same | ⟨old, changed, found, same, kinds⟩
  · rw [same]
    exact ⟨writes, table, contents, distinct⟩
  · obtain rfl := Option.some.inj (contents.symm.trans found)
    rw [same]
    refine ⟨writes, changed, rfl, ?_⟩
    rcases kinds with ⟨_, inserted⟩ | ⟨_, _, _, wrote⟩
    · exact TaskTable.insertRow_uuids distinct inserted
    · obtain ⟨_, rfl⟩ := write_ok wrote
      rw [mapTable, Task.uuid_write]
      exact distinct

theorem Constrained.distinct (constrained : Constrained store) :
    ((rows store).map Task.uuid).Nodup := by
  obtain ⟨_, table, contents, distinct⟩ := constrained
  rw [rows_some contents]
  exact distinct

/-- An insertion of a uuid that the table holds is refused, unless there is no id left to give
before that. -/
theorem insert_repeated (constrained : Constrained store)
    (held : (task.fill fresh).uuid.beforeNul ∈ (rows store).map Task.uuid)
    (lasting : (store.insert fresh task).1.status ≠ .error (.engine .full)) :
    ∃ column, store.insert fresh task =
      ({ status := .error (.repeated column), task := task.fill fresh }, store) := by
  obtain ⟨writes, table, contents, _⟩ := constrained
  rw [rows_some contents] at held
  have refused (id : UInt64) : ∃ column, store.writing
      (fun table => table.insertRow { task.fill fresh with id }.asRow) =
        (.error (.repeated column), store) := by
    have held : { task.fill fresh with id }.asRow.uuid ∈ table.rows.map Task.uuid := by
      rw [Task.asRow_eq]
      exact held
    obtain ⟨column, repeated⟩ := TaskTable.insertRow_repeated held
    refine ⟨column, ?_⟩
    simp only [writing, contents, writes, Bool.false_eq_true, if_false, repeated]
  by_cases own : task.id ≠ 0
  · obtain ⟨column, wrote⟩ := refused (task.fill fresh).id
    refine ⟨column, ?_⟩
    rw [insert_own own, wrote]
  · have blank : task.id = 0 := Decidable.not_not.mp own
    rcases next : table.nextId? with _ | id
    · have full : store.contents.map TaskTable.nextId? = some none := by
        rw [contents, Option.map_some, next]
      rw [insert_refused blank full, if_neg (by simp [writes])] at lasting
      exact absurd rfl lasting
    · have given : store.contents.map TaskTable.nextId? = some (some id) := by
        rw [contents, Option.map_some, next]
      obtain ⟨column, wrote⟩ := refused id.toUInt64
      refine ⟨column, ?_⟩
      rw [insert_numbered blank given, wrote]
      rfl

theorem turn_repeated {service : Service TableStore Connection.Handle} {i : Nat}
    {lease : Lease Connection.Handle} (found : service.lease? i = some lease)
    (constrained : Constrained service.store)
    (held : (task.fill fresh).uuid.beforeNul ∈ (rows service.store).map Task.uuid)
    (lasting : ¬(service.turn (.ask i (.step fresh (.insert task)))).1.Exhausted) :
    ∃ column, service.turn (.ask i (.step fresh (.insert task))) =
      (.stepped (.inserted { status := .error (.repeated column), task := task.fill fresh }),
        service) := by
  rw [turn_step found, apply_insert] at lasting ⊢
  have numbered : (service.store.insert fresh task).1.status ≠ .error (.engine .full) := by
    intro full
    exact lasting ⟨_, rfl, (service.store.insert fresh task).1.task, by rw [← full]⟩
  obtain ⟨column, refused⟩ := insert_repeated constrained held numbered
  exact ⟨column, by rw [refused]⟩

end TableStore

namespace Backend
variable {backend : Backend}

/-- The rows that a transaction sees. -/
def seen : {backend : Backend} → backend.Handle → backend.Store → List Task
  | memory, handle, _ => (MemoryStore.Handle.contents handle).tasks
  | table, _, store => rows store

/-- An insertion brings a uuid that its transaction does not see yet, or is refused over its id. -/
def MindsUuids (service : Service backend.Store backend.Handle) (turn : Turn) : Prop :=
  ∀ i lease fresh task, turn = .ask i (.step fresh (.insert task)) → service.lease? i = some lease →
    (task.id ≠ 0 ∧ task.id ∈ (seen lease.handle service.store).map Task.id) ∨
      (task.fill fresh).uuid ∉ (seen lease.handle service.store).map Task.uuid

/-- What turns in memory keep that mind the uuids. -/
theorem memory_uuids {turns : List Turn}
    (minded : Service.Allows { store := empty .memory } MindsUuids turns) :
    Service.Has (fun store : MemoryStore => store.committed.Distinct)
      (fun handle : MemoryStore.Handle => handle.contents.Distinct)
      (Service.run { store := empty .memory } turns).2 := by
  have settles := @MemoryStore.settles_contents MemoryStore.Contents.Distinct
    (fun _ => List.nodup_nil)
  refine Service.run_keeps (fun {service turn} has minds => ?_)
    (Service.has_start List.nodup_nil) minded
  refine settles.turn has (fun i lease fresh step same found => ?_)
  have distinct := has.handles i lease found
  rw [MemoryStore.perform_eq]
  refine ⟨MemoryStore.apply_keeps (fun task inserts => ?_) distinct.write distinct, has.store⟩
  exact distinct.insert (minds i lease fresh task (inserts ▸ same) found)

/-- What all turns on the table keep. -/
theorem table_uuids (turns : List Turn) :
    Service.Has (TableStore.Holds TableStore.Constrained) (fun _ : Connection.Handle => True)
      (Service.run { store := empty .table } turns).2 := by
  have initial : TableStore.Holds TableStore.Constrained (empty .table) :=
    (TableStore.holds_free rfl).mpr ⟨rfl, {}, rfl, List.nodup_nil⟩
  exact @Service.run_keeps _ _ _ _ (fun _ _ => True) _ _
    (fun has _ => TableStore.keeps_constrained.turn has _)
    (Service.has_start initial) (fun _ _ _ _ => trivial)

/-- No two tasks that are stored, or that a transaction sees, have the same uuid, and an insertion
of one that its transaction sees is refused. In memory the insertions must mind the uuids
themselves; on the table an id must be left. -/
theorem uuids_unique {turns : List Turn} {service : Service backend.Store backend.Handle}
    (made : service = (Service.run { store := empty backend } turns).2)
    (minded : backend = .memory → Service.Allows { store := empty backend } MindsUuids turns) :
    ((rows service.store).map Task.uuid).Nodup ∧ ∀ i lease, service.lease? i = some lease →
      ((seen lease.handle service.store).map Task.uuid).Nodup ∧ ∀ fresh task,
        keep backend.Store (task.fill fresh).uuid ∈ (seen lease.handle service.store).map
          Task.uuid →
        (backend = .memory → MindsUuids service (.ask i (.step fresh (.insert task)))) →
        ¬(service.turn (.ask i (.step fresh (.insert task)))).1.Exhausted →
          ∃ cause left, service.turn (.ask i (.step fresh (.insert task))) =
            (.stepped (.inserted { status := .error cause, task := left }), service) ∧
              cause.code = .alreadyExists := by
  cases backend with
  | memory =>
    have has := memory_uuids (minded rfl)
    rw [← made] at has
    refine ⟨has.store, fun i lease found =>
      ⟨has.handles i lease found, fun fresh task held minds _ => ?_⟩⟩
    obtain ⟨own, taken⟩ :=
      (minds rfl i lease fresh task rfl found).resolve_right (fun unused => unused held)
    exact ⟨_, _, MemoryStore.turn_taken found own taken, rfl⟩
  | table =>
    have has := table_uuids turns
    rw [← made] at has
    have constrained : TableStore.Constrained service.store := has.store.1
    have distinct : ((rows service.store).map Task.uuid).Nodup := constrained.distinct
    refine ⟨distinct, fun i lease found => ⟨distinct, fun fresh task held _ lasting => ?_⟩⟩
    obtain ⟨column, refused⟩ := TableStore.turn_repeated found constrained held lasting
    exact ⟨_, _, refused, rfl⟩

/-- In memory the id is taken, on the table the uuid is. -/
theorem uuids_unique_again :
    let turns : List Turn := [.begin, .ask 0 (.step ⟨[], 1⟩ (.insert (draft 1 "a")))]
    let again (id : UInt64) : Turn := .ask 0 (.step ⟨[], 1⟩ (.insert (draft id "a")))
    let memory : Service MemoryStore MemoryStore.Handle :=
      (Service.run { store := empty .memory } turns).2
    let table : Service TableStore Connection.Handle :=
      (Service.run { store := empty .table } turns).2
    (∃ cause left, memory.turn (again 1) =
      (.stepped (.inserted { status := .error cause, task := left }), memory) ∧
        cause.code = .alreadyExists) ∧
      ∃ cause left, table.turn (again 2) =
        (.stepped (.inserted { status := .error cause, task := left }), table) ∧
        cause.code = .alreadyExists := by
  intro turns again memory table
  have lasting (cause : StoreError) (other : cause ≠ .engine .full) {told : Told} {left : Task}
      (same : told = .stepped (.inserted { status := .error cause, task := left })) :
        ¬told.Exhausted := by
    rintro ⟨answer, rfl, task, exhausted⟩
    cases same
    cases exhausted
    exact other rfl
  have minded : Service.Allows ({ store := empty .memory } : Service MemoryStore MemoryStore.Handle)
      (@MindsUuids .memory) turns := by
    refine Service.allows_cons.mpr ⟨nofun, Service.allows_cons.mpr ⟨?_, Service.allows_nil⟩⟩
    intro i lease fresh task same found
    cases same
    cases found
    exact .inr List.not_mem_nil
  have minds : @MindsUuids .memory memory (again 1) := by
    intro i lease fresh task same found
    cases same
    cases found
    exact .inl ⟨by decide, List.mem_singleton_self _⟩
  constructor
  · exact ((@uuids_unique .memory turns memory rfl (fun _ => minded)).2 0 _ rfl).2 ⟨[], 1⟩
      (draft 1 "a")
      (List.mem_singleton_self _) (fun _ => minds) (lasting (.taken 1) nofun rfl)
  · exact ((@uuids_unique .table turns table rfl nofun).2 0 _ rfl).2 ⟨[], 1⟩ (draft 2 "a")
      (List.mem_singleton_self _) nofun (lasting (.repeated "uuid") nofun rfl)

/-- In memory two tasks with the same uuid are inserted and stored. -/
theorem memory_repeats_uuid :
    let turns : List Turn := [.begin, .ask 0 (.step ⟨[], 1⟩ (.insert (draft 1 "a"))),
      .ask 0 (.step ⟨[], 1⟩ (.insert (draft 2 "a"))), .ask 0 .commit]
    let run :=
      Service.run ({ store := empty .memory } : Service MemoryStore MemoryStore.Handle) turns
    run.1 = [.begun (.ok ()), .stepped (.inserted ⟨.ok (), draft 1 "a"⟩),
      .stepped (.inserted ⟨.ok (), draft 2 "a"⟩),
        .ended (.ok ())] ∧
      ¬((rows run.2.store).map Task.uuid).Nodup := by
  intro turns run
  refine ⟨rfl, ?_⟩
  decide

end Backend
end CodeAudit
