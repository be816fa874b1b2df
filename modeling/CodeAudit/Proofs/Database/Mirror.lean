import CodeAudit.Proofs.Database.Insertion
import CodeAudit.Proofs.Store.DataSteps
import CodeAudit.Proofs.Store.Simulation

/-! A database beside a table that holds what its rows are read as. Insertions are answered in the
same way. -/
namespace CodeAudit

open TaskStore (Answers)

namespace Connection
variable {α β : Type} {like : α → β → Prop}

/-- Two connections in the same state, to contents that are alike. -/
structure Alike (like : α → β → Prop) (mine : Connection α) (theirs : Connection β) : Prop where
  contents : like mine.contents theirs.contents
  restore : Option.Rel like mine.restore theirs.restore
  readOnly : mine.readOnly = theirs.readOnly
  frozen : mine.frozen = theirs.frozen

variable {mine : Connection α} {theirs : Connection β}

theorem Alike.refusesWrites (alike : Alike like mine theirs) :
    mine.refusesWrites = theirs.refusesWrites := by
  unfold Connection.refusesWrites
  rw [alike.readOnly, alike.frozen]

theorem Alike.withContents (alike : Alike like mine theirs) {own : α} {other : β}
    (same : like own other) :
    Alike like { mine with contents := own } { theirs with contents := other } :=
  ⟨same, alike.restore, alike.readOnly, alike.frozen⟩

theorem Alike.abandon (alike : Alike like mine theirs) :
    Alike like mine.abandon theirs.abandon := by
  obtain ⟨contents, restore, readOnly, frozen⟩ := alike
  unfold Connection.abandon
  cases mine with
  | mk own before _ _ _ =>
    cases theirs with
    | mk other after _ _ _ =>
      cases restore with
      | none => exact ⟨contents, .none, readOnly, frozen⟩
      | some same => exact ⟨same, .none, readOnly, frozen⟩

end Connection

/-- The database holds rows of tasks, and the table holds what they are read as. -/
inductive Database.Reads : Database → Option TaskTable → Prop where
  | rows {rows : List Row} {largest : Option Int64} (kept : ∀ row ∈ rows, row.Kept)
      (ordered : Row.InOrder rows) : Reads (.ofRows rows largest) (some (.ofRows rows largest))

/-- The store has come across no damage, and its database holds what the table does, also where the
open transaction goes back to. -/
structure DatabaseStore.Mirrors (store : DatabaseStore) (table : TableStore) : Prop where
  unharmed : store.harmed = false
  alike : Connection.Alike Database.Reads store.connection table

theorem TableStore.writing_readOnly {store : TableStore} {table : TaskTable}
    {statement : TaskTable → Except StoreError TaskTable} (contents : store.contents = some table)
    (refuses : store.refusesWrites = true) :
    store.writing statement = (.error (.engine .readOnly), store) := by
  simp [writing, contents, refuses]

theorem TableStore.insert_readOnly {store : TableStore} {table : TaskTable}
    (contents : store.contents = some table) (refuses : store.refusesWrites = true) (fresh : Fresh)
    (task : Task) :
    store.insert fresh task =
      ({ status := .error (.engine .readOnly), task := task.fill fresh }, store) := by
  by_cases blank : task.id = 0
  · cases next : table.nextId? with
    | none =>
      have full : store.contents.map TaskTable.nextId? = some none := by
        rw [contents, Option.map_some, next]
      rw [insert_refused blank full, if_pos refuses]
    | some number =>
      have numbered : store.contents.map TaskTable.nextId? = some (some number) := by
        rw [contents, Option.map_some, next]
      rw [insert_numbered blank numbered, writing_readOnly contents refuses]
      rfl
  · rw [insert_own blank, writing_readOnly contents refuses]

/-- The database holds the rows, and the table the tasks that these are read as. -/
structure DatabaseStore.Shares (store : DatabaseStore) (table : TableStore) (rows : List Row)
    (largest : Option Int64) : Prop where
  holds : store.contents = .ofRows rows largest
  reads : table.contents = some (.ofRows rows largest)
  keeps : ∀ row ∈ rows, row.Kept
  ordered : Row.InOrder rows

namespace DatabaseStore
variable {store : DatabaseStore} {table : TableStore} {rows : List Row} {largest : Option Int64}

theorem Mirrors.abandoned (mirrors : store.Mirrors table) :
    store.abandoned.Mirrors table.abandon := by
  refine ⟨?_, mirrors.alike.abandon⟩
  change (store.harmed && _) = false
  rw [mirrors.unharmed, Bool.false_and]

theorem Mirrors.contents (mirrors : store.Mirrors table) :
    ∃ rows largest, store.Shares table rows largest := by
  have reads := mirrors.alike.contents
  generalize mine : store.connection.contents = database at reads
  generalize theirs : table.contents = contents at reads
  cases reads with
  | rows kept ordered => exact ⟨_, _, mine, theirs, kept, ordered⟩

theorem mem_put {row other : Row} {rows : List Row} :
    other ∈ Relation.put row rows ↔ other = row ∨ other ∈ rows := by
  induction rows with
  | nil => simp [Relation.put]
  | cons first rest ih =>
    unfold Relation.put
    split
    · exact List.mem_cons
    · rw [List.mem_cons, List.mem_cons, ih]
      tauto

theorem ordered_map {rows : List Row} :
    (rows.map Row.task).Pairwise (fun first second => first.id.toInt64 < second.id.toInt64) ↔
      Row.InOrder rows := by
  rw [List.pairwise_map]
  simp only [Row.toInt64_task]

theorem put_ordered {row : Row} {rows : List Row}
    (fresh : ∀ other ∈ rows, other.number ≠ row.number) (ordered : Row.InOrder rows) :
    Row.InOrder (Relation.put row rows) := by
  rw [← ordered_map, ← TaskTable.place_map]
  refine TaskTable.place_ordered (fun task member same => ?_) (ordered_map.mpr ordered)
  obtain ⟨other, inside, rfl⟩ := List.mem_map.mp member
  exact fresh other inside ((Row.toInt64_task other).symm.trans
    ((congrArg UInt64.toInt64 same).trans (Row.toInt64_task row)))

/-- The rows with another one are in order, and each holds what is bound for its task. -/
theorem Shares.reads_added (shares : store.Shares table rows largest) {row : Row} (kept : row.Kept)
    {added : TaskTable} (inserted : (TaskTable.ofRows rows largest).insertRow row.task = .ok added) :
    Database.Reads (.ofRows (Relation.put row rows) (some (max (largest.getD 0) row.number)))
      (some added) := by
  rw [TaskTable.insertRow_ofRows] at inserted
  split at inserted
  · cases inserted
  next free =>
    split at inserted
    · cases inserted
    · obtain rfl := Except.ok.inj inserted
      have fresh : ∀ other ∈ rows, other.number ≠ row.number := by
        simpa [List.find?_isSome] using free
      refine .rows (fun other member => ?_) (put_ordered fresh shares.ordered)
      rcases mem_put.mp member with rfl | member
      · exact kept
      · exact shares.keeps other member

/-- Both add a row that the database holds as its cells and the table as what these are read as. -/
theorem Mirrors.add (mirrors : store.Mirrors table) (shares : store.Shares table rows largest)
    (writes : table.refusesWrites = false) {values : List (Text × Cell)} {cells : List Cell}
    {cell : Cell} {told : Option Int64} {number : Int64}
    (given : Deed.valuesFor (.ofTasks rows) values = (cells, cell))
    (meant : Deed.numberOf cell = pure told)
    (numbered : told.or ((Relation.ofTasks rows).nextNumber? (largest.getD 0)) = some number)
    (kept : Row.Kept { number, cells })
    (complete : (Relation.ofTasks rows).Complete { number, cells }) :
    let added := store.execute (.ofTasks rows)
      (Deed.insertRow Deed.react none (.ofTasks rows) [] [] values) .conflict
    let wrote := table.writing (fun table => table.insertRow (Row.task { number, cells }))
    added.1.map (fun _ => ()) = wrote.1 ∧ added.2.Mirrors wrote.2 ∧
      (wrote.1.isOk → added.2.lastNumber = number) := by
  intro added wrote
  obtain ⟨after, executed, harmed, left⟩ :=
    execute_insertion shares.holds shares.keeps given meant numbered kept complete
  have same : wrote = table.writing (fun table => table.insertRow (Row.task { number, cells })) :=
    rfl
  unfold TableStore.writing at same
  rw [shares.reads, writes] at same
  have told : added = (_, after) := executed
  have unharmed : after.harmed = false := harmed.trans mirrors.unharmed
  cases outcome : (TaskTable.ofRows rows largest).insertRow (Row.task { number, cells }) with
  | error cause =>
    rw [outcome] at told left
    simp only [outcome, Bool.false_eq_true, if_false] at same
    rw [told, same]
    refine ⟨rfl, ⟨unharmed, ?_⟩, nofun⟩
    rw [left]
    exact mirrors.alike
  | ok changed =>
    rw [outcome] at told left
    simp only [outcome, Bool.false_eq_true, if_false] at same
    obtain ⟨last, left⟩ := left
    rw [told, same]
    refine ⟨rfl, ⟨unharmed, ?_⟩, fun _ => last⟩
    rw [left]
    exact mirrors.alike.withContents (shares.reads_added kept outcome)

/-- What is bound for a task, by the columns that the insertion names. -/
def valuesOf (task : Task) : List (Text × Cell) :=
  if task.id = 0 then (Task.insertColumns.map utf8).zip (task.bound .bytes)
  else (Task.insertColumnsWithId.map utf8).zip (task.boundWithId .bytes)

theorem insert_ofRows (holds : store.contents = .ofRows rows largest)
    (unharmed : store.harmed = false)
    (keeps : ∀ row ∈ rows, row.Kept) (fresh : Fresh) (task : Task) :
    store.insert fresh task =
      if store.connection.refusesWrites then
        ({ status := .error (.engine .readOnly), task := task.fill fresh }, store)
      else
        let added := store.execute (.ofTasks rows)
          (Deed.insertRow Deed.react none (.ofTasks rows) []
          [] (valuesOf (task.fill fresh))) .conflict
        let status := added.1.map (fun _ => ())
        ({ status
           task :=
            if task.id = 0 ∧ status.isOk then
              { task.fill fresh with id := added.2.lastNumber.toUInt64 }
            else task.fill fresh }, added.2) := by
  have encoding : store.contents.encoding = .bytes := by
    rw [holds]
    exact Database.encoding_prepared
  have accepted : (Relation.ofTasks rows).insertionComplaint? (utf8 Relation.tasksName)
      ((valuesOf (task.fill fresh)).map Prod.fst) = none := by
    unfold valuesOf
    split
    · exact Relation.insertionComplaint?_ofTasks.1
    · exact Relation.insertionComplaint?_ofTasks.2
  have may := writable_ofRows (fun tasks => tasks.insertionComplaint? (utf8 Relation.tasksName)
    ((valuesOf (task.fill fresh)).map Prod.fst)) (.insertion Event.noRow) holds unharmed
      keeps accepted
  unfold insert
  simp only [encoding]
  unfold valuesOf at may ⊢
  rw [may]
  cases store.connection.refusesWrites <;> rfl

/-- Where no number is left nothing is added, and the open transaction is over. -/
theorem execute_full (holds : store.contents = .ofRows rows largest)
    (keeps : ∀ row ∈ rows, row.Kept) {values : List (Text × Cell)} {cells : List Cell} {cell : Cell}
    (given : Deed.valuesFor (.ofTasks rows) values = (cells, cell))
    (meant : Deed.numberOf cell = pure none)
    (full : (Relation.ofTasks rows).nextNumber? (largest.getD 0) = none) :
    ∃ after, store.execute (.ofTasks rows)
        (Deed.insertRow Deed.react none (.ofTasks rows) [] [] values) .conflict =
          (.error (.engine .full), after) ∧
      after.connection = store.abandoned.connection ∧ after.harmed = store.abandoned.harmed := by
  have about := work_about holds
  have counts : store.work.Counts largest := work_sequences holds
  have plain := Relation.plain_ofTasks (fun row member => (keeps row member).legible)
  rw [← counts.sequence rows] at full
  have failed := Deed.insertRow_full plain about.shows (about.mayLack _) given meant full
  unfold execute
  rw [failed]
  exact ⟨_, rfl, rfl, rfl⟩

/-- A task without an id is not added where no number is left. -/
theorem Mirrors.insert_full (mirrors : store.Mirrors table)
    (shares : store.Shares table rows largest) (writes : table.refusesWrites = false)
    {task : Task} (blank : task.id = 0) (fresh : Fresh)
    (full : (Relation.ofTasks rows).nextNumber? (largest.getD 0) = none) :
    Answers Mirrors (store.insert fresh task) (table.insert fresh task) := by
  have next : table.contents.map TaskTable.nextId? = some none := by
    rw [shares.reads, Option.map_some, TaskTable.nextId?_ofRows, full]
  have values : valuesOf (task.fill fresh) =
      (Task.insertColumns.map utf8).zip ((task.fill fresh).bound .bytes) := if_pos blank
  have given := @Relation.valuesFor_blank rows (task.fill fresh)
  obtain ⟨after, executed, connection, harmed⟩ := execute_full shares.holds shares.keeps given rfl
    full
  rw [insert_ofRows shares.holds mirrors.unharmed shares.keeps, mirrors.alike.refusesWrites, writes,
    values, executed, TableStore.insert_refused blank next, writes]
  refine .of_parts ?_ ⟨harmed.trans mirrors.abandoned.unharmed, ?_⟩
  · simp [Except.map, Except.isOk, Except.toBool]
  · change Connection.Alike _ after.connection _
    rw [connection]
    exact mirrors.abandoned.alike

/-- A task without an id is added under the next number. -/
theorem Mirrors.insert_numbered (mirrors : store.Mirrors table)
    (shares : store.Shares table rows largest) (writes : table.refusesWrites = false)
    {task : Task} (blank : task.id = 0) (fresh : Fresh) {number : Int64}
    (numbered : (Relation.ofTasks rows).nextNumber? (largest.getD 0) = some number) :
    Answers Mirrors (store.insert fresh task) (table.insert fresh task) := by
  have next : table.contents.map TaskTable.nextId? = some (some number) := by
    rw [shares.reads, Option.map_some, TaskTable.nextId?_ofRows, numbered]
  have values : valuesOf (task.fill fresh) =
      (Task.insertColumns.map utf8).zip ((task.fill fresh).bound .bytes) := if_pos blank
  have given := @Relation.valuesFor_blank rows (task.fill fresh)
  obtain ⟨told, after, last⟩ := mirrors.add shares writes given rfl numbered
    (Row.kept_bound (task.fill fresh) rfl number)
    (Relation.complete_ofTasks (task.fill fresh) rfl)
  rw [Row.task_bound] at told after last
  rw [insert_ofRows shares.holds mirrors.unharmed shares.keeps, mirrors.alike.refusesWrites, writes,
    values, TableStore.insert_numbered blank next]
  refine .of_parts ?_ after
  rw [if_neg Bool.false_ne_true]
  simp only [told, blank, true_and]
  cases wrote : (table.writing (fun table => table.insertRow
      (Task.asRow { task.fill fresh with id := number.toUInt64 }))).1 with
  | error cause => rfl
  | ok =>
    rw [wrote] at last
    simp only [last rfl]

/-- A task with an id is added under its own. -/
theorem Mirrors.insert_own (mirrors : store.Mirrors table)
    (shares : store.Shares table rows largest) (writes : table.refusesWrites = false)
    {task : Task} (own : task.id ≠ 0) (fresh : Fresh) :
    Answers Mirrors (store.insert fresh task) (table.insert fresh task) := by
  have values : valuesOf (task.fill fresh) =
      (Task.insertColumnsWithId.map utf8).zip ((task.fill fresh).boundWithId .bytes) := if_neg own
  have given := @Relation.valuesFor_id rows (task.fill fresh)
  obtain ⟨told, after, _⟩ := mirrors.add shares writes given rfl rfl
    (Row.kept_bound (task.fill fresh) rfl _) (Relation.complete_ofTasks (task.fill fresh) rfl)
  have read : Row.task { number := (task.fill fresh).id.toInt64,
                         cells := (task.fill fresh).boundWithId .bytes } =
      (task.fill fresh).asRow := by
    refine (Row.task_bound _ _ _).trans ?_
    rw [UInt64.toUInt64_toInt64]
  rw [read] at told after
  rw [insert_ofRows shares.holds mirrors.unharmed shares.keeps, mirrors.alike.refusesWrites, writes,
    values, TableStore.insert_own own]
  refine .of_parts ?_ after
  rw [if_neg Bool.false_ne_true]
  simp only [told, own, false_and, if_false]

/-- A database answers an insertion as the table does. -/
theorem Mirrors.insert (mirrors : store.Mirrors table) (fresh : Fresh) (task : Task) :
    Answers Mirrors (store.insert fresh task) (table.insert fresh task) := by
  obtain ⟨rows, largest, shares⟩ := mirrors.contents
  cases writes : table.refusesWrites with
  | true =>
    rw [insert_ofRows shares.holds mirrors.unharmed shares.keeps, mirrors.alike.refusesWrites,
      writes, TableStore.insert_readOnly shares.reads writes]
    exact .intro _ mirrors
  | false =>
    by_cases blank : task.id = 0
    · cases numbered : (Relation.ofTasks rows).nextNumber? (largest.getD 0) with
      | none => exact mirrors.insert_full shares writes blank fresh numbered
      | some number => exact mirrors.insert_numbered shares writes blank fresh numbered
    · exact mirrors.insert_own shares writes blank fresh

end DatabaseStore
end CodeAudit
