import CodeAudit.Proofs.Store.Lawful
import CodeAudit.Store.Memory
import CodeAudit.Store.Table

/-! The two stores and what runs rely on in them. A transaction works on a copy that replaces the
contents, or on the contents with a copy to go back to. -/
namespace CodeAudit

open TaskStore

namespace MemoryStore

def mapRows (change : Task → Task) (store : MemoryStore) : MemoryStore :=
  { committed := { store.committed with tasks := store.committed.tasks.map change } }

theorem write_ok {contents written : Contents} {column : Task.Column} {task : UInt64} {value : Text}
    (wrote : contents.write column task value = (.ok (), written)) :
    (∃ row ∈ contents.tasks, row.id = task) ∧
      written = { contents with
        tasks := contents.tasks.map (fun t => if t.id = task then t.write column value
          else t) } := by
  unfold Contents.write Contents.find? at wrote
  rcases found : contents.tasks.find? (fun t => t.id = task) with _ | row
  · simp [found] at wrote
  · simp only [found, Prod.mk.injEq, true_and] at wrote
    have same := List.find?_some found
    exact ⟨⟨row, List.mem_of_find?_eq_some found, of_decide_eq_true same⟩, wrote.symm⟩

theorem write_error {contents written : Contents} {column : Task.Column} {task : UInt64}
    {value : Text} {cause : StoreError}
    (wrote : contents.write column task value = (.error cause, written)) :
    (∀ row ∈ contents.tasks, row.id ≠ task) ∧ written = contents := by
  unfold Contents.write Contents.find? at wrote
  rcases found : contents.tasks.find? (fun t => t.id = task) with _ | row
  · simp only [found, Prod.mk.injEq] at wrote
    exact ⟨fun row member => by simpa using List.find?_eq_none.mp found row member, wrote.2.symm⟩
  · simp [found] at wrote

instance : Lawful MemoryStore where
  rows store := store.committed.tasks
  mapRows := mapRows
  keep := id
  Fit _ := True
  Open base change handle store := store = base ∧ handle.stage = .working ∧
    handle.contents = (mapRows change base).committed
  rows_mapRows _ _ := rfl
  mapRows_id store := by simp [mapRows]
  mapRows_mapRows first second store := by simp [mapRows]
  mapRows_congr same := by simp [mapRows, List.map_congr_left same]
  mapRows_fit _ _ := trivial
  begin_open := by
    intro store handle opened began
    obtain ⟨rfl, rfl⟩ := Prod.mk.inj (Except.ok.inj began)
    exact ⟨rfl, rfl, by simp [begin, mapRows]⟩
  ofProject_open := by
    rintro base change handle store project ⟨rfl, _, contents⟩
    exact ⟨rfl, congrArg (fun contents => contents.ofProject project) contents⟩
  doneInGroup_open := by
    rintro base change handle store group ⟨rfl, _, contents⟩
    exact ⟨rfl, congrArg (fun contents => contents.doneInGroup group) contents⟩
  write_open := by
    rintro base change handle store task result later written ⟨rfl, stage, contents⟩ wrote
    rcases outcome : handle.contents.write .result task result with ⟨status, after⟩
    simp only [TaskStore.write, outcome, Prod.mk.injEq] at wrote
    obtain ⟨rfl, rfl, rfl⟩ := wrote
    obtain ⟨present, same⟩ := write_ok outcome
    rw [contents] at present
    refine ⟨present, rfl, stage, ?_⟩
    simp only [same, contents, mapRows, List.map_map]
    rfl
  write_refused := by
    rintro base change handle store task result cause later written ⟨rfl, stage, contents⟩ wrote
    rcases outcome : handle.contents.write .result task result with ⟨status, after⟩
    simp only [TaskStore.write, outcome, Prod.mk.injEq] at wrote
    obtain ⟨rfl, rfl, rfl⟩ := wrote
    exact ⟨rfl, stage, (write_error outcome).2.trans contents⟩
  commit_closes := by
    rintro base change handle store ⟨rfl, stage, contents⟩ -
    simp only [TaskStore.commit, MemoryStore.commit, stage, TaskStore.release, contents]
  commit_refused := by
    rintro base change handle store fault ⟨rfl, stage, contents⟩ refused
    simp [TaskStore.commit, MemoryStore.commit, stage] at refused
  release_open := by
    rintro base change handle store ⟨rfl, _, _⟩
    rfl
  begin_fit _ := ⟨_, _, rfl⟩
  write_fit := by
    rintro base change handle store task result - ⟨rfl, stage, contents⟩ ⟨row, member, same⟩
    rcases outcome : handle.contents.write .result task result with ⟨cause | ⟨⟩, after⟩
    · rw [contents] at outcome
      exact absurd same ((write_error outcome).1 row member)
    · simp only [TaskStore.write, outcome]
  commit_fit := by
    rintro base change handle store - ⟨rfl, stage, contents⟩
    simp only [TaskStore.commit, MemoryStore.commit, stage]

end MemoryStore

namespace TableStore

def mapTable (change : Task → Task) (table : TaskTable) : TaskTable :=
  { table with rows := table.rows.map change }

def mapRows (change : Task → Task) (store : TableStore) : TableStore :=
  { store with contents := store.contents.map (mapTable change) }

theorem write_ok {table written : TaskTable} {column : Task.Column} {task : UInt64} {value : Text}
    (wrote : table.write column task value = .ok written) :
    (∃ row ∈ table.rows, row.id = task) ∧
      written = mapTable (fun t => if t.id = task then t.write column value.beforeNul else t)
        table := by
  unfold TaskTable.write TaskTable.find? at wrote
  rcases found : table.rows.find? (fun t => t.id = task) with _ | row
  · simp [found] at wrote
  · simp only [found, Except.ok.injEq] at wrote
    have same := List.find?_some found
    exact ⟨⟨row, List.mem_of_find?_eq_some found, of_decide_eq_true same⟩, wrote.symm⟩

theorem write_present {table : TaskTable} {task : UInt64} (column : Task.Column) (value : Text)
    (present : ∃ row ∈ table.rows, row.id = task) :
    ∃ written, table.write column task value = .ok written := by
  unfold TaskTable.write TaskTable.find?
  rcases found : table.rows.find? (fun t => t.id = task) with _ | row
  · obtain ⟨row, member, same⟩ := present
    exact absurd same (by simpa using List.find?_eq_none.mp found row member)
  · simp only [found, Except.ok.injEq, exists_eq']

/-- A statement that fails leaves the store as it was. -/
theorem writing_error {store written : TableStore}
    {statement : TaskTable → Except StoreError TaskTable} {cause : StoreError}
    (wrote : store.writing statement = (.error cause, written)) :
    written = store := by
  unfold writing at wrote
  split at wrote
  · exact (Prod.mk.inj wrote).2.symm
  · split at wrote
    · exact (Prod.mk.inj wrote).2.symm
    · split at wrote
      · cases (Prod.mk.inj wrote).1
      · exact (Prod.mk.inj wrote).2.symm

theorem writing_ok {store written : TableStore}
    {statement : TaskTable → Except StoreError TaskTable}
    (wrote : store.writing statement = (.ok (), written)) :
    ∃ table changed, store.contents = some table ∧ statement table = .ok changed ∧
      written = { store with contents := some changed } := by
  unfold writing at wrote
  split at wrote
  · cases (Prod.mk.inj wrote).1
  next table contents =>
    split at wrote
    · cases (Prod.mk.inj wrote).1
    · split at wrote
      next changed done => exact ⟨table, changed, contents, done, (Prod.mk.inj wrote).2.symm⟩
      · cases (Prod.mk.inj wrote).1

def opened (base : TableStore) (change : Task → Task) : TableStore :=
  { mapRows change base with restore := some base.contents }

theorem mapRows_self (store : TableStore) : mapRows id store = store := by
  obtain ⟨contents, _, _, _, _⟩ := store
  cases contents <;> simp [mapRows, mapTable]

theorem begin_opens {store after : TableStore} {handle : Connection.Handle}
    (began : Connection.begin store = .ok (handle, after)) :
    store.restore = none ∧ handle.stage = .working ∧ after = opened store id := by
  unfold Connection.begin Connection.open? at began
  split at began
  · cases began
  · split at began
    · cases began
    next closed =>
      obtain ⟨rfl, rfl⟩ := Prod.mk.inj (Except.ok.inj began)
      exact ⟨by simpa using closed, rfl, by rw [opened, mapRows_self]⟩

theorem begin_open_store {store : TableStore} (ready : store.restore = none)
    (writes : store.refusesWrites = false) :
    Connection.begin store = .ok ({}, opened store id) := by
  have notReadOnly : store.readOnly = false := (Bool.or_eq_false_iff.mp writes).1
  unfold Connection.begin Connection.open?
  simp only [ready, notReadOnly, opened, mapRows_self]
  rfl

theorem commit_opened (base : TableStore) (ready : base.restore = none) (change : Task → Task)
    {handle : Connection.Handle} (stage : handle.stage = .working) :
    Connection.commit handle (opened base change) =
      .ok ({ stage := .committed }, mapRows change base) := by
  unfold Connection.commit Connection.commit?
  simp only [stage, opened, mapRows, ready]
  rfl

theorem listing_opened (base : TableStore) (change : Task → Task) (query : List Task → List Task)
    (none : query [] = []) :
    ((opened base change).listing (fun table => query table.rows)).state = opened base change ∧
      ((opened base change).listing (fun table => query table.rows)).value =
        query (((base.contents.map TaskTable.rows).getD []).map change) := by
  cases contents : base.contents <;> simp [listing, opened, mapRows, contents, mapTable, none]

theorem release_opened (base : TableStore) (ready : base.restore = none) (change : Task → Task)
    (handle : Connection.Handle) (stage : handle.stage = .working) :
    (Connection.release handle (opened base change)).1 = base := by
  simp only [Connection.release, stage, Connection.rollback?, opened, mapRows]
  cases base
  simp_all

instance : Lawful TableStore where
  rows store := (store.contents.map TaskTable.rows).getD []
  mapRows := mapRows
  keep := Text.beforeNul
  Fit store := store.restore = none ∧ store.contents.isSome ∧ store.refusesWrites = false
  Open base change handle store := base.restore = none ∧ handle.stage = .working ∧
    store = opened base change
  rows_mapRows change store := by
    cases contents : store.contents <;> simp [mapRows, mapTable, contents]
  mapRows_id := mapRows_self
  mapRows_mapRows first second store := by
    cases contents : store.contents <;> simp [mapRows, mapTable, contents]
  mapRows_congr {store first second} same := by
    cases contents : store.contents with
    | none => simp [mapRows, contents]
    | some table =>
      have rows :=
        List.map_congr_left (fun row member => same row (by simpa [contents] using member))
      simp [mapRows, mapTable, contents, rows]
  mapRows_fit _ fit := ⟨fit.1, by simpa [mapRows] using fit.2.1, fit.2.2⟩
  begin_open := by
    intro store handle after began
    exact begin_opens began
  ofProject_open := by
    rintro base change handle store project ⟨ready, stage, rfl⟩
    exact listing_opened base change (List.filter (fun t => t.projectId = project.beforeNul)) rfl
  doneInGroup_open := by
    rintro base change handle store group ⟨ready, stage, rfl⟩
    exact listing_opened base
      change (List.filter (fun t => t.groupId = some group.beforeNul ∧ t.isDone)) rfl
  write_open := by
    rintro base change handle store task result later written ⟨ready, stage, rfl⟩ wrote
    rcases outcome : writing (opened base change)
      (fun table => table.write .result task result) with ⟨status, after⟩
    simp only [TaskStore.write, outcome, Prod.mk.injEq] at wrote
    obtain ⟨rfl, rfl, rfl⟩ := wrote
    obtain ⟨table, changed, contents, done, rfl⟩ := writing_ok outcome
    obtain ⟨present, rfl⟩ := write_ok done
    cases before : base.contents with
    | none => simp [opened, mapRows, before] at contents
    | some old =>
      obtain rfl : mapTable change old = table := by simpa [opened, mapRows, before] using contents
      refine ⟨by simpa [before, mapTable] using present, ready, stage, ?_⟩
      simp only [opened, mapRows, before, mapTable, Option.map_some, List.map_map]
      rfl
  write_refused := by
    rintro base change handle store task result cause later written ⟨ready, stage, rfl⟩ wrote
    rcases outcome : writing (opened base change)
      (fun table => table.write .result task result) with ⟨status, after⟩
    simp only [TaskStore.write, outcome, Prod.mk.injEq] at wrote
    obtain ⟨rfl, rfl, rfl⟩ := wrote
    exact ⟨ready, stage, writing_error outcome⟩
  commit_closes := by
    rintro base change handle store ⟨ready, stage, rfl⟩ -
    simp only [TaskStore.commit, commit_opened base ready change stage, Reply.ofOutcome,
      TaskStore.release,
      Connection.release]
  commit_refused := by
    rintro base change handle store fault ⟨ready, stage, rfl⟩ refused
    simp [TaskStore.commit, commit_opened base ready change stage, Reply.ofOutcome] at refused
  release_open := by
    rintro base change handle store ⟨ready, stage, rfl⟩
    exact release_opened base ready change handle stage
  begin_fit fit := ⟨_, _, begin_open_store fit.1 fit.2.2⟩
  write_fit := by
    rintro base change handle store task result ⟨_, _, writes⟩ ⟨ready, stage, rfl⟩ present
    have allowed : Connection.refusesWrites (opened base change) = false := writes
    cases before : base.contents with
    | none => simp [before] at present
    | some old =>
      have contents : (opened base change).contents = some (mapTable change old) := by
        simp [opened, mapRows, before]
      have known : ∃ row ∈ (mapTable change old).rows, row.id = task := by
        simpa [before, mapTable] using present
      obtain ⟨written, done⟩ := write_present .result result known
      simp only [TaskStore.write, writing, contents, allowed, Bool.false_eq_true, if_false, done]
  commit_fit := by
    rintro base change handle store - ⟨ready, stage, rfl⟩
    simp only [TaskStore.commit, commit_opened base ready change stage, Reply.ofOutcome]

theorem rows_some {store : TableStore} {table : TaskTable}
    (contents : store.contents = some table) :
    rows store = table.rows := by
  change (store.contents.map TaskTable.rows).getD [] = table.rows
  rw [contents]
  rfl

end TableStore
end CodeAudit
