import CodeAudit.Proofs.Database.Queries

/-! A column that is written to is bound anew in its place, and the row stays where it is. -/
namespace CodeAudit

open TaskStore (Answers)

namespace Relation
variable {rows : List Row} {row : Row}

/-- A value that is told for one column takes its place. -/
theorem zip_told {columns : List Column} {cells : List Cell} {name : Text} {value : Cell}
    {place : Nat} (distinct : (columns.map (fun column => column.name.lower)).Nodup)
    (here : (columns.map (fun column => column.name.lower))[place]? = some name.lower)
    (length : cells.length = columns.length) :
    (columns.zip cells).map (fun (column, cell) =>
      (([(name, value)].find? (fun (name, _) => name.lower = column.name.lower)).map
        Prod.snd).getD cell) = cells.set place value := by
  refine List.ext_getElem (by simp [length]) (fun i inside also => ?_)
  have within : i < columns.length := by simpa [length] using inside
  have named : (columns.map (fun column => column.name.lower))[i]? =
      some columns[i].name.lower := by
    rw [List.getElem?_map, List.getElem?_eq_getElem within, Option.map_some]
  have meant : name.lower = columns[i].name.lower ↔ place = i := by
    obtain ⟨placed, found⟩ := List.getElem?_eq_some_iff.mp here
    obtain ⟨held, same⟩ := List.getElem?_eq_some_iff.mp named
    rw [← found, ← same]
    exact List.getElem_inj distinct
  rw [List.getElem_map, List.getElem_zip, List.getElem_set]
  by_cases same : place = i
  · simp [same, meant.mpr same]
  · have apart : ¬name.lower = columns[i].name.lower := fun equal => same (meant.mp equal)
    simp [same, apart]

def placeOf : Task.Column → Nat
  | .result => 7
  | .shortResult => 18
  | .scanRecord => 17

theorem changes_ofTasks (column : Task.Column) :
    (forTasks.columns.map (fun column => column.name.lower))[placeOf column]? =
        some (utf8 column.title).lower ∧
      forTasks.changing [utf8 column.title] = [utf8 column.title] ∧
      forTasks.namesNumber (utf8 column.title) = false ∧
      forTasks.changeComplaint? (utf8 column.title) = none ∧
      Touched.meets (some [utf8 column.title]) uuidRule.toIndex.mentions = false := by
  cases column <;> decide +kernel

/-- What is bound for a task with something written to a column stands in the place of the
column. -/
theorem set_bound (own : Cell) (t : Task) (column : Task.Column) (value : Text) :
    (own :: t.bound .bytes).set (placeOf column) (Task.textCell .bytes value) =
      own :: (t.write column value).bound .bytes := by
  cases column <;> rfl

theorem cellsWith_ofTasks (kept : row.Kept) (column : Task.Column) (value : Text) :
    ∃ own : Cell, own.prefer .integer = own ∧
      Deed.cellsWith (ofTasks rows) [(utf8 column.title, Task.textCell .bytes value)] row =
        own :: (row.task.write column value).bound .bytes := by
  obtain ⟨own, fits, bound⟩ := kept.bound
  refine ⟨own, fits, ?_⟩
  have distinct : (forTasks.columns.map (fun column => column.name.lower)).Nodup := by
    rw [names_ofTasks.1]
    exact names_ofTasks.2
  rw [← set_bound, ← bound]
  refine zip_told distinct (changes_ofTasks column).1 ?_
  rw [bound]
  rfl

theorem columnFault?_ofTasks : (ofTasks rows).columnFault? "id" = none := by
  have fine : forTasks.columnFault? "id" = none := by decide +kernel
  exact fine

theorem concerned_change (column : Task.Column) (row : Row) :
    Deed.concerned (ofTasks rows) (some ((ofTasks rows).changing [utf8 column.title]))
      (some row.number) row = [none] := by
  have changing : (ofTasks rows).changing [utf8 column.title] = [utf8 column.title] :=
    (changes_ofTasks column).2.1
  have free := (changes_ofTasks column).2.2.2.2
  have rules : (ofTasks rows).uniqueness none [] = [none, some uuidRule] := rfl
  unfold Deed.concerned
  rw [changing, rules]
  simp [free]

end Relation

def Row.among (row : Row) (rows : List Row) : List Row :=
  rows.map (fun other => if other.number = row.number then row else other)

namespace Row
variable {row : Row} {rows : List Row}

theorem put_above (above : ∀ other ∈ rows, row.number < other.number) :
    Relation.put row rows = row :: rows := by
  cases rows with
  | nil => rfl
  | cons first rest =>
    unfold Relation.put
    rw [if_pos (above first List.mem_cons_self)]

theorem among_absent (absent : ∀ other ∈ rows, other.number ≠ row.number) :
    row.among rows = rows := by
  unfold among
  refine (List.map_congr_left (fun other member => ?_)).trans (List.map_id rows)
  rw [if_neg (absent other member)]
  rfl

/-- To take a row out and to put another one of its number in is to change it where it is. -/
theorem put_filter (ordered : Row.InOrder rows)
    (present : ∃ other ∈ rows, other.number = row.number) :
    Relation.put row (rows.filter (fun other => other.number ≠ row.number)) = row.among rows := by
  induction rows with
  | nil => simp at present
  | cons first rest ih =>
    obtain ⟨above, tail⟩ := List.pairwise_cons.mp ordered
    by_cases here : first.number = row.number
    · have apart : ∀ other ∈ rest, other.number ≠ row.number := by
        intro other member same
        exact Int64.lt_irrefl (here ▸ same ▸ above other member)
      have others : rest.filter (fun other => other.number ≠ row.number) = rest := by
        refine List.filter_eq_self.mpr (fun other member => ?_)
        simp [apart other member]
      rw [List.filter_cons_of_neg (by simp [here]), others,
        put_above (fun other member => here ▸ above other member)]
      unfold among
      rw [List.map_cons, if_pos here]
      exact congrArg (row :: ·) (among_absent apart).symm
    · obtain ⟨other, member, same⟩ := present
      have inside : other ∈ rest := by
        rcases List.mem_cons.mp member with rfl | inside
        · exact absurd same here
        · exact inside
      have notBelow : ¬row.number < first.number := by
        intro below
        exact Int64.lt_irrefl (Int64.lt_trans below (same ▸ above other inside))
      rw [List.filter_cons_of_pos (by simp [here])]
      unfold Relation.put among
      rw [if_neg notBelow, List.map_cons, if_neg here]
      exact congrArg (first :: ·) (ih tail ⟨other, inside, same⟩)

theorem among_kept (kept : row.Kept) (keeps : ∀ other ∈ rows, other.Kept) :
    ∀ other ∈ row.among rows, other.Kept := by
  intro other member
  obtain ⟨before, inside, rfl⟩ := List.mem_map.mp member
  split
  · exact kept
  · exact keeps before inside

theorem among_ordered (ordered : Row.InOrder rows) : Row.InOrder (row.among rows) := by
  have same (other : Row) :
      (if other.number = row.number then row else other).number = other.number := by
    split
    next here => exact here.symm
    next => rfl
  refine List.pairwise_map.mpr (ordered.imp ?_)
  intro first second below
  rwa [same, same]

end Row

namespace Deed
variable {work : Work} {rows : List Row} {largest : Option Int64} {old : Row} {number : Int64}

theorem changeRow_task (about : work.About rows largest) (keeps : ∀ row ∈ rows, row.Kept)
    (ordered : Row.InOrder rows) (found : rows.find? (fun row => row.number = number) = some old)
    (column : Task.Column) (value : Text) (assign : Row → Deed (List (Text × Cell)))
    (assigned : (assign old).run work =
      (.ok [(utf8 column.title, Task.textCell .bytes value)], work)) :
    ∃ own : Cell, own.prefer .integer = own ∧
      (changeRow react none (Relation.ofTasks rows) [utf8 column.title] assign number).run work =
        (.ok (), { work.withTable (.ofTasks (Row.among
            { number, cells := own :: (old.task.write column value).bound .bytes } rows)) with
          changes := work.changes + 1 }) := by
  have member := List.mem_of_find?_eq_some found
  have numbered : old.number = number := by simpa using List.find?_some found
  have plain := Relation.plain_ofTasks (fun row member => (keeps row member).legible)
  obtain ⟨own, fits, cells⟩ :=
    @Relation.cellsWith_ofTasks rows old (keeps old member) column value
  refine ⟨own, fits, ?_⟩
  let row : Row := { number, cells := own :: (old.task.write column value).bound .bytes }
  have cleared : (clearAll (Relation.ofTasks rows)
      (some ((Relation.ofTasks rows).changing [utf8 column.title])) (some row.number) row).run
        work =
        (.ok (), work) := by
    unfold clearAll
    rw [Relation.concerned_change]
    exact bind_ok (run_clear_free (run_obstacle_own about.shows row)) _
  have wrote := write_cleared plain about.shows
    (Relation.complete_ofTasks (old.task.write column value) fits) cleared
  have same : ((Option.map (Relation.ofTasks rows).without (some number)).getD
      (Relation.ofTasks rows)).withRow row = .ofTasks (row.among rows) :=
    congrArg Relation.ofTasks (Row.put_filter ordered ⟨old, member, numbered⟩)
  rw [same] at wrote
  have stays : ∀ told ∈ [(utf8 column.title, Task.textCell .bytes value)],
      (Relation.ofTasks rows).namesNumber told.1 = false := by
    intro told inside
    obtain rfl := List.mem_singleton.mp inside
    exact (Relation.changes_ofTasks column).2.2.1
  rw [← cells] at wrote
  have changed := changeRow_written plain about.shows found assigned stays wrote
    ((about.written _).quiet rows)
  exact changed

end Deed

namespace TaskTable
variable {rows : List Row} {largest : Option Int64} {old : Row}

/-- To write to a column of the table is to bind its row anew. -/
theorem write_ofRows (keeps : ∀ row ∈ rows, row.Kept) (ordered : Row.InOrder rows) {id : UInt64}
    (found : rows.find? (fun row => row.number = id.toInt64) = some old) (column : Task.Column)
    (value : Text) (own : Cell) :
    (ofRows rows largest).write column id value =
      .ok (.ofRows (Row.among { number := old.number, cells :=
        own :: (old.task.write column value).bound .bytes } rows) largest) := by
  have member := List.mem_of_find?_eq_some found
  have numbered : old.number = id.toInt64 := by simpa using List.find?_some found
  rw [numbered]
  let row : Row :=
    { number := id.toInt64, cells := own :: (old.task.write column value).bound .bytes }
  have read : row.task = old.task.write column value.beforeNul := by
    refine (Row.task_bound (old.task.write column value) own id.toInt64).trans ?_
    have same : ({ old.task.write column value with id := id.toInt64.toUInt64 } : Task) =
        old.task.write column value := by
      rw [← numbered, ← Row.id_task]
      cases column <;> rfl
    rw [same, Task.asRow_write, (keeps old member).asRow]
  unfold write
  rw [find?_ofRows, found]
  refine congrArg (fun rows => Except.ok (TaskTable.mk rows _)) ?_
  change (rows.map Row.task).map _ = (row.among rows).map Row.task
  unfold Row.among
  rw [List.map_map, List.map_map]
  refine List.map_congr_left (fun other inside => ?_)
  by_cases here : other.number = id.toInt64
  · have same : other = old := by
      have first := Relation.find?_member ordered inside
      rw [here, found] at first
      exact (Option.some.inj first).symm
    subst same
    rw [Function.comp_apply, Function.comp_apply, if_pos (id_task_eq.mpr here), if_pos here]
    exact read.symm
  · have other_id : ¬other.task.id = id := fun same => here (id_task_eq.mp same)
    rw [Function.comp_apply, Function.comp_apply, if_neg other_id, if_neg here]

end TaskTable

namespace DatabaseStore
variable {store : DatabaseStore} {table : TableStore} {rows : List Row} {largest : Option Int64}

def changing (column : Task.Column) (value : Text) (tasks : Relation) (found : List Row) :
    Deed Unit := do
  found.forM (fun row => Deed.changeRow Deed.react none tasks [utf8 column.title]
    (fun _ => pure [(utf8 column.title, Task.textCell .bytes value)]) row.number)
  (none : Option EngineFault).forM Deed.fault

theorem run_changing_nil (column : Task.Column) (value : Text) (tasks : Relation) (work : Work) :
    (changing column value tasks []).run work = (.ok (), work) := rfl

theorem run_changing_one {column : Task.Column} {value : Text} {tasks : Relation} {row : Row}
    {work after : Work}
    (did : (Deed.changeRow Deed.react none tasks [utf8 column.title]
      (fun _ => pure [(utf8 column.title, Task.textCell .bytes value)]) row.number).run work =
        (.ok (), after)) :
    (changing column value tasks [row]).run work = (.ok (), after) := by
  let change (row : Row) : Deed Unit := Deed.changeRow Deed.react none tasks [utf8 column.title]
    (fun _ => pure [(utf8 column.title, Task.textCell .bytes value)]) row.number
  change ((change row >>= fun _ => pure ()) >>= fun _ => pure ()).run work = _
  rw [Deed.bind_ok (Deed.bind_ok did _)]
  rfl

theorem write_ofRows (holds : store.contents = .ofRows rows largest)
    (unharmed : store.harmed = false) (keeps : ∀ row ∈ rows, row.Kept) (column : Task.Column)
    (id : UInt64) (value : Text) :
    store.write column id value =
      if store.connection.refusesWrites then (.error (.engine .readOnly), store)
      else
        match store.execute (.ofTasks rows) (changing column value (.ofTasks rows)
          (rows.find? (fun row => row.number = id.toInt64)).toList) .violation with
        | (.ok written, after) =>
            (if written = 0 then .error (.missing id) else .ok (), after)
        | (.error cause, after) => (.error cause, after) := by
  have bound : store.keptText value = Task.textCell .bytes value := by
    unfold keptText Task.textCell
    rw [encoding_ofRows holds]
  have accepted : ((Relation.ofTasks rows).changeComplaint? (utf8 column.title)).or
      ((Relation.ofTasks rows).columnFault? "id") = none := by
    rw [Relation.columnFault?_ofTasks, Option.or_none]
    exact (Relation.changes_ofTasks column).2.2.2.1
  have may := writable_ofRows (fun tasks => (tasks.changeComplaint? (utf8 column.title)).or
    (tasks.columnFault? "id")) (.change [utf8 column.title] Event.noRow Event.noRow) holds unharmed
    keeps accepted
  unfold write
  simp only [may, bound]
  cases store.connection.refusesWrites with
  | true => rfl
  | false =>
    simp only [Bool.false_eq_true, if_false, Relation.search_id]
    rfl

/-- A database answers a write as the table does. -/
theorem Mirrors.write (mirrors : store.Mirrors table) (column : Task.Column) (id : UInt64)
    (value : Text) :
    Answers Mirrors (store.write column id value)
      (table.writing (fun table => table.write column id value)) := by
  obtain ⟨rows, largest, shares⟩ := mirrors.contents
  have about := work_about shares.holds
  have counts := work_sequences shares.holds
  rw [write_ofRows shares.holds mirrors.unharmed shares.keeps, mirrors.alike.refusesWrites]
  cases writes : table.refusesWrites with
  | true =>
    rw [if_pos rfl, TableStore.writing_readOnly shares.reads writes]
    exact .intro _ mirrors
  | false =>
    unfold TableStore.writing
    rw [if_neg Bool.false_ne_true, shares.reads, writes]
    cases found : rows.find? (fun row => row.number = id.toInt64) with
    | none =>
      have absent : (TaskTable.ofRows rows largest).write column id value =
          .error (.missing id) := by
        unfold TaskTable.write
        rw [TaskTable.find?_ofRows, found]
        rfl
      simp only [absent, Bool.false_eq_true, if_false]
      rw [Option.toList_none, execute_ok (run_changing_nil _ _ _ _),
        worked_ofRows shares.holds about.tables counts (.inl rfl), ← shares.holds]
      exact .of_parts rfl ⟨mirrors.unharmed, mirrors.alike⟩
    | some old =>
      have numbered : old.number = id.toInt64 := by simpa using List.find?_some found
      obtain ⟨own, fits, changed⟩ := Deed.changeRow_task about shares.keeps shares.ordered found
        column value (fun _ => pure [(utf8 column.title, Task.textCell .bytes value)]) rfl
      let row : Row :=
        { number := old.number, cells := own :: (old.task.write column value).bound .bytes }
      have wrote : (TaskTable.ofRows rows largest).write column id value =
          .ok (.ofRows (row.among rows) largest) :=
        TaskTable.write_ofRows shares.keeps shares.ordered found column value own
      rw [← numbered] at changed
      simp only [wrote, Bool.false_eq_true, if_false]
      rw [Option.toList_some, execute_ok (run_changing_one changed),
        worked_ofRows shares.holds (about.written _).tables counts (.inl rfl)]
      refine .of_parts rfl ⟨mirrors.unharmed, mirrors.alike.withContents (.rows ?_ ?_)⟩
      · exact Row.among_kept (Row.kept_bound _ fits _) shares.keeps
      · exact Row.among_ordered shares.ordered

end DatabaseStore
end CodeAudit
