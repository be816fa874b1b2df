import CodeAudit.Proofs.Database.Work
import CodeAudit.Proofs.Store.Tidy

/-! A row that is added to the database is one that is added to the table it is read as, and both
refuse the same rows. -/
namespace CodeAudit

def TaskTable.ofRows (rows : List Row) (largest : Option Int64) : TaskTable :=
  { rows := rows.map Row.task, sequence := largest.getD 0 }

namespace TaskTable
variable {rows : List Row} {row : Row} {largest : Option Int64}

theorem id_task_eq {row : Row} {id : UInt64} : row.task.id = id ↔ row.number = id.toInt64 := by
  rw [Row.id_task]
  constructor
  · rintro rfl
    exact (Int64.toInt64_toUInt64 _).symm
  · intro same
    rw [same, UInt64.toUInt64_toInt64]

theorem find?_ofRows (rows : List Row) (largest : Option Int64) (id : UInt64) :
    (ofRows rows largest).find? id =
      (rows.find? (fun row => row.number = id.toInt64)).map Row.task := by
  unfold find? ofRows
  rw [List.find?_map]
  congr 2
  funext row
  simp [id_task_eq]

theorem place_map (row : Row) (rows : List Row) :
    place row.task (rows.map Row.task) = (Relation.put row rows).map Row.task := by
  induction rows with
  | nil => rfl
  | cons first rest ih =>
    rw [List.map_cons]
    unfold place Relation.put
    rw [Row.toInt64_task, Row.toInt64_task, ih]
    split <;> rfl

theorem insertRow_ofRows (row : Row) (rows : List Row) (largest : Option Int64) :
    (ofRows rows largest).insertRow row.task =
      if (rows.find? (fun other => other.number = row.number)).isSome then .error (.repeated "id")
      else if (rows.find? (fun other => other.task.uuid = row.task.uuid)).isSome then
        .error (.repeated "uuid")
      else .ok (ofRows (Relation.put row rows) (some (max (largest.getD 0) row.number))) := by
  unfold insertRow
  rw [find?_ofRows, Option.isSome_map, Row.toInt64_task]
  have held : (ofRows rows largest).rows.any (fun t => t.uuid = row.task.uuid) =
      (rows.find? (fun other => other.task.uuid = row.task.uuid)).isSome := by
    rw [Bool.eq_iff_iff]
    simp [ofRows, List.find?_isSome]
  rw [held]
  split
  · rfl
  · split
    · rfl
    · simp only [ofRows, place_map, Option.getD_some]

theorem nextId?_ofRows (rows : List Row) (largest : Option Int64) :
    (ofRows rows largest).nextId? = (Relation.ofTasks rows).nextNumber? (largest.getD 0) := by
  have last : (ofRows rows largest).rows.getLast?.map (fun t => t.id.toInt64) =
      rows.getLast?.map Row.number := by
    simp only [ofRows, List.getLast?_map, Option.map_map, Function.comp_def, Row.toInt64_task]
  have empty : (ofRows rows largest).rows.isEmpty = rows.isEmpty := List.isEmpty_map
  have counts : (Relation.ofTasks rows).counts = true := rfl
  have order (a b : Int64) : max a b = max b a := by
    change (if a ≤ b then b else a) = if b ≤ a then a else b
    split
    next below =>
      split
      next above => exact Int64.le_antisymm above below
      next => rfl
    next notBelow => rw [if_pos (Int64.le_of_lt (Int64.not_le.mp notBelow))]
  unfold nextId? Relation.nextNumber?
  rw [last, empty, counts]
  cases found : rows.getLast? with
  | none =>
    obtain rfl := List.getLast?_eq_none_iff.mp found
    have positive : (0 : Int64) ≠ Int64.maxValue := by decide
    simp [Relation.ofTasks, positive, order, ofRows]
  | some row =>
    have some_rows : rows.isEmpty = false := by
      cases rows with
      | nil => cases found
      | cons => rfl
    simp [Relation.ofTasks, some_rows, order, ofRows, found]

end TaskTable

namespace Relation
variable {relation : Relation} {rows : List Row}

/-- Nothing is wrong with an event of a plain table, whatever else there is. -/
theorem Plain.complaint? (plain : relation.Plain)
    (collated : ∀ index ∈ relation.indexes, ∀ part ∈ index.parts, part.2.fault? = none)
    (catalog : Catalog) (event : Event) : catalog.complaint? relation event = none := by
  have listed : relation.listingFault? event = none := by
    refine List.findSome?_eq_none_iff.mpr (fun index member => ?_)
    exact List.findSome?_eq_none_iff.mpr (collated index (List.mem_filter.mp member).1)
  have ruled : relation.ruleComplaint? (event.touched relation) = none := by
    have uncomputed : relation.columns.filterMap Column.computed = [] := by
      refine List.filterMap_eq_nil_iff.mpr (fun column member => ?_)
      simpa using List.any_eq_false.mp plain.told column member
    unfold ruleComplaint? checksFor
    rw [uncomputed, plain.checks]
    rfl
  unfold Catalog.complaint?
  cases catalog.triggerCount with
  | zero => rfl
  | succ fuel =>
    unfold Catalog.objection
    simp [listed, ruled, plain.triggersFor]

theorem complaint?_ofTasks (legible : ∀ row ∈ rows, row.unread = []) (catalog : Catalog)
    (event : Event) : catalog.complaint? (ofTasks rows) event = none := by
  refine (plain_ofTasks legible).complaint? (fun index member part inside => ?_) catalog event
  simp only [ofTasks, List.mem_cons, List.not_mem_nil, or_false] at member
  rcases member with rfl | rfl
  all_goals
    simp only [Database.index, List.mem_cons, List.not_mem_nil, or_false] at inside
    rcases inside with rfl | rfl <;> rfl

theorem insertionComplaint?_ofTasks :
    (ofTasks rows).insertionComplaint? (utf8 tasksName) (Task.insertColumns.map utf8) = none ∧
      (ofTasks rows).insertionComplaint? (utf8 tasksName) (Task.insertColumnsWithId.map utf8) =
        none := by
  have accepted :
      forTasks.insertionComplaint? (utf8 tasksName) (Task.insertColumns.map utf8) = none ∧
        forTasks.insertionComplaint? (utf8 tasksName) (Task.insertColumnsWithId.map utf8) =
          none := by
    decide +kernel
  exact accepted

end Relation

namespace Work.About
variable {work : Work} {rows : List Row} {largest : Option Int64}

theorem mayLack (about : work.About rows largest) (relation : Relation) :
    work.mayLack relation = false := by
  simp [Work.mayLack, about.ends]

theorem count (about : work.About rows largest) (relation : Relation) (number : Int64) :
    (work.count relation number).About rows largest := by
  obtain ⟨encoding, tables, ends⟩ := about
  unfold Work.count
  split <;> exact ⟨encoding, tables, ends⟩

theorem written (about : work.About rows largest) (later : List Row) :
    Work.About { work.withTable (.ofTasks later) with changes := work.changes + 1 } later largest :=
  ⟨about.encoding, about.withTable later, about.ends⟩

theorem quiet (about : work.About rows largest) (others : List Row) (found : Relation)
    (shown : work.table? (Relation.ofTasks others).name = some found) : found.triggers = [] := by
  rw [← Option.some.inj (about.shows.symm.trans shown)]
  rfl

end Work.About

namespace Work
variable {work : Work} {rows : List Row} {largest : Option Int64}

/-- The numbers that the work knows are those of the table. -/
def Counts (work : Work) (largest : Option Int64) : Prop :=
  work.sequences = largest.toList.map (fun number => (utf8 Relation.tasksName, number))

theorem Counts.sequence (counts : work.Counts largest) (rows : List Row) :
    work.sequence (.ofTasks rows) = largest.getD 0 := by
  unfold Work.sequence
  rw [counts]
  cases largest with
  | none => rfl
  | some number => simp [Relation.ofTasks, Relation.forTasks]

theorem Counts.count (counts : work.Counts largest) (rows : List Row) (number : Int64) :
    (work.count (.ofTasks rows) number).Counts (some (max (largest.getD 0) number)) := by
  have counting : (Relation.ofTasks rows).counts = true := rfl
  unfold Counts Work.count
  rw [if_pos counting, counts.sequence rows, counts]
  cases largest with
  | none => rfl
  | some before => simp [Relation.ofTasks, Relation.forTasks]

end Work

namespace DatabaseStore
variable {store : DatabaseStore} {rows : List Row} {largest : Option Int64}

theorem writable_ofRows (complaint? : Relation → Option EngineFault) (event : Event)
    (holds : store.contents = .ofRows rows largest) (unharmed : store.harmed = false)
    (keeps : ∀ row ∈ rows, row.Kept) (accepted : complaint? (.ofTasks rows) = none) :
    store.writable complaint? event =
      if store.connection.refusesWrites then .error .readOnly else .ok (.ofTasks rows) := by
  have fine := Relation.complaint?_ofTasks (fun row member => (keeps row member).legible)
    store.contents.catalog event
  have found : store.contents.tasks = some (.ofTasks rows) := by
    rw [holds, Database.tasks_ofRows]
  unfold writable refusal?
  simp only [found, accepted, fine, unharmed, Option.or_none]
  split <;> simp_all

theorem execute_ok {tasks : Relation} {deed : Deed Unit} {work : Work}
    (did : deed.run store.work = (.ok (), work)) (refusal : Violation → StoreError) :
    store.execute tasks deed refusal =
      (.ok work.changes, { store.worked work true with
        lastNumber := work.lastNumber
        changes := (work.ended false).lastChanges
        allChanges := (work.ended false).allChanges }) := by
  unfold execute
  rw [did]

theorem execute_refused {tasks : Relation} {deed : Deed Unit} {cause : Violation} {work : Work}
    (refused : deed.run store.work = (.error (.refused cause .abort), work))
    (refusal : Violation → StoreError) :
    ∃ after, store.execute tasks deed refusal = (.error (refusal cause), after) ∧
      after.harmed = store.harmed ∧ after.connection = store.connection := by
  unfold execute
  rw [refused]
  exact ⟨_, rfl, rfl, rfl⟩

/-- The outcome of a statement that adds a row is that of the table, and so is what it leaves. -/
theorem execute_insertion {values : List (Text × Cell)} {cells : List Cell} {cell : Cell}
    {told : Option Int64} {number : Int64} (holds : store.contents = .ofRows rows largest)
    (keeps : ∀ row ∈ rows, row.Kept) (given : Deed.valuesFor (.ofTasks rows) values = (cells, cell))
    (meant : Deed.numberOf cell = pure told)
    (numbered : told.or ((Relation.ofTasks rows).nextNumber? (largest.getD 0)) = some number)
    (kept : Row.Kept { number, cells })
    (complete : (Relation.ofTasks rows).Complete { number, cells }) :
    ∃ after, store.execute (.ofTasks rows)
          (Deed.insertRow Deed.react none (.ofTasks rows) [] [] values) .conflict =
        (((TaskTable.ofRows rows largest).insertRow (Row.task { number, cells })).map (fun _ => 1),
          after) ∧
      after.harmed = store.harmed ∧
      match (TaskTable.ofRows rows largest).insertRow (Row.task { number, cells }) with
      | .error _ => after.connection = store.connection
      | .ok _ => after.lastNumber = number ∧
          after.connection = { store.connection with
            contents := .ofRows (Relation.put { number, cells } rows)
              (some (max (largest.getD 0) number)) } := by
  have about := work_about holds
  have counts : store.work.Counts largest := work_sequences holds
  have plain := Relation.plain_ofTasks (fun row member => (keeps row member).legible)
  rw [← counts.sequence rows] at numbered
  have wrote := Deed.write_task (about.count (.ofTasks rows) number) keeps kept complete
  rw [TaskTable.insertRow_ofRows]
  dsimp only at wrote ⊢
  split at wrote
  next taken =>
    have refused := Deed.insertRow_refused plain about.shows (about.mayLack _) given meant
      numbered wrote
    rw [if_pos taken]
    exact execute_refused refused .conflict
  next free =>
    rw [if_neg free]
    split at wrote
    next taken =>
      have refused := Deed.insertRow_refused plain about.shows (about.mayLack _) given meant
        numbered wrote
      obtain ⟨after, executed, left⟩ := execute_refused refused .conflict
      rw [Relation.repeats_ofTasks] at executed
      rw [if_pos taken]
      exact ⟨after, executed, left⟩
    next unique =>
      rw [if_neg unique]
      have later := (about.count (.ofTasks rows) number).written
        (Relation.put { number, cells } rows)
      obtain ⟨work, added, tables, sequences, last, written⟩ : ∃ work : Work,
          (Deed.insertRow Deed.react none (.ofTasks rows) [] [] values).run store.work =
              (.ok (), work) ∧
            work.tables = [.ofTasks (Relation.put { number, cells } rows), .ofNumber largest] ∧
            work.Counts (some (max (largest.getD 0) number)) ∧ work.lastNumber = number ∧
            work.changes = 1 :=
        ⟨_, Deed.insertRow_written plain about.shows (about.mayLack _) given meant numbered wrote
          (later.quiet rows), later.tables, counts.count rows number, rfl, rfl⟩
      rw [execute_ok added, worked_ofRows holds tables sequences (.inr rfl), written]
      exact ⟨_, rfl, rfl, last, rfl⟩

end DatabaseStore
end CodeAudit
