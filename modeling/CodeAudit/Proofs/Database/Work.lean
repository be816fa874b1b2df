import CodeAudit.Proofs.Database.Layout

/-! What statements about tasks work on: the table of tasks, and the table that keeps the largest
number given to one of its rows. -/
namespace CodeAudit

namespace Relation
variable {rows : List Row} {row : Row}

theorem repeats_ofTasks : StoreError.conflict ((ofTasks rows).repeats uuidRule) =
    .repeated "uuid" := by
  have named : uuidRule.columns? = some [utf8 "uuid"] := rfl
  unfold repeats
  rw [named]
  simp only [List.map_cons, List.map_nil, place_uuid]
  rfl

def ofNumber (largest : Option Int64) : Relation :=
  { forSequences with
    rows := largest.toList.map (fun number =>
      { number := 1, cells := [.text (utf8 tasksName), .integer number] }) }

end Relation

structure Work.About (work : Work) (rows : List Row) (largest : Option Int64) : Prop where
  encoding : work.encoding = .bytes
  tables : work.tables = [Relation.ofTasks rows, Relation.ofNumber largest]
  ends : work.sequencesEnd = true

namespace Work.About
variable {work : Work} {rows : List Row} {largest : Option Int64}

theorem shows (about : work.About rows largest) : Deed.Shows work (Relation.ofTasks rows) := by
  unfold Deed.Shows Work.table?
  rw [about.tables]
  exact List.find?_cons_of_pos (decide_eq_true rfl)

theorem withTable (about : work.About rows largest) (after : List Row) :
    (work.withTable (Relation.ofTasks after)).tables =
      [Relation.ofTasks after, Relation.ofNumber largest] := by
  have other : (Relation.ofNumber largest).name ≠ (Relation.ofTasks after).name := by
    have apart : utf8 Relation.sequencesName ≠ utf8 Relation.tasksName := by decide +kernel
    exact apart
  unfold Work.withTable
  simp only [about.tables, List.map_cons, List.map_nil, if_neg other]
  rfl

end Work.About

namespace Deed
variable {work : Work} {rows : List Row} {largest : Option Int64} {row other : Row}

/-- The outcome of adding a row among others. -/
theorem write_task (about : work.About rows largest) (keeps : ∀ row ∈ rows, row.Kept)
    (kept : row.Kept) (complete : (Relation.ofTasks rows).Complete row) :
    (write (Relation.ofTasks rows) none [] (fun _ => none) none none row).run work =
      if (rows.find? (fun other => other.number = row.number)).isSome then
        (.error (.refused (Relation.ofTasks rows).repeatsNumber .abort), work)
      else if (rows.find? (fun other => other.task.uuid = row.task.uuid)).isSome then
        (.error (.refused ((Relation.ofTasks rows).repeats Relation.uuidRule) .abort), work)
      else
        (.ok row, { work.withTable (Relation.ofTasks (Relation.put row rows)) with
          changes := work.changes + 1 }) := by
  have plain := Relation.plain_ofTasks (fun row member => (keeps row member).legible)
  have number := run_obstacle_number plain about.shows row
  have clash := Relation.clashing?_ofTasks keeps kept
  rw [← about.encoding] at clash
  have uuid := run_obstacle_rule about.shows clash
  split
  next taken =>
    obtain ⟨other, found⟩ := Option.isSome_iff_exists.mp taken
    have held : (obstacle? (Relation.ofTasks rows) none row none).run work =
        (.ok (some other), work) :=
      number.trans (congrArg (fun found => (Except.ok found, work)) found)
    exact write_stopped plain complete (bind_error (run_clear_refused held rfl) _)
  next free =>
    have unheld : (obstacle? (Relation.ofTasks rows) none row none).run work =
        (.ok none, work) := by
      rw [number]
      exact congrArg (fun found => (Except.ok found, work)) (Option.not_isSome_iff_eq_none.mp free)
    have numbered := run_clear_free unheld
    split
    next taken =>
      obtain ⟨other, found⟩ := Option.isSome_iff_exists.mp taken
      rw [found] at uuid
      refine write_stopped plain complete ((bind_ok numbered _).trans ?_)
      exact bind_error (run_clear_refused uuid rfl) _
    next unique =>
      rw [Option.not_isSome_iff_eq_none.mp unique] at uuid
      refine write_cleared plain about.shows complete ((bind_ok numbered _).trans ?_)
      exact bind_ok (run_clear_free uuid) _

end Deed

namespace Database

/-- What preparing a database makes of one that holds nothing. -/
def prepared : Database := (({} : Database).prepare (.ok ())).toOption.getD {}

theorem prepare_empty : ({} : Database).prepare (.ok ()) = .ok prepared := by
  have made : (({} : Database).prepare (.ok ())).isOk = true := by decide +kernel
  unfold prepared
  cases outcome : ({} : Database).prepare (.ok ()) with
  | error fault =>
    rw [outcome] at made
    cases made
  | ok database => rfl

/-- The database with some rows, and the largest number that was given to one. -/
def ofRows (rows : List Row) (largest : Option Int64) : Database :=
  { prepared with tables := [Relation.ofTasks rows, Relation.ofNumber largest] }

theorem prepared_tables : prepared.tables = [Relation.ofTasks [], Relation.ofNumber none] := by
  decide +kernel

theorem prepared_eq : prepared = ofRows [] none := by
  unfold ofRows
  rw [← prepared_tables]

theorem encoding_prepared : prepared.encoding = .bytes := by decide +kernel

variable {rows : List Row} {largest : Option Int64}

theorem isNamed_tasks : Relation.forTasks.isNamed Relation.tasksName = true ∧
    Relation.forTasks.isNamed Relation.sequencesName = false ∧
    Relation.forSequences.isNamed Relation.sequencesName = true := by
  decide +kernel

theorem tasks_ofRows : (ofRows rows largest).tasks = some (Relation.ofTasks rows) := by
  have named : (Relation.ofTasks rows).isNamed Relation.tasksName = true := isNamed_tasks.1
  simp only [tasks, table?, ofRows, List.find?_cons, named]

theorem numbers_ofRows :
    (ofRows rows largest).table? Relation.sequencesName = some (Relation.ofNumber largest) := by
  have other : (Relation.ofTasks rows).isNamed Relation.sequencesName = false := isNamed_tasks.2.1
  have named : (Relation.ofNumber largest).isNamed Relation.sequencesName = true :=
    isNamed_tasks.2.2
  simp only [table?, ofRows, List.find?_cons, other, named]

theorem sequences_ofRows :
    (ofRows rows largest).sequences =
      (largest.toList.map (fun number => (utf8 Relation.tasksName, number)), true) := by
  unfold sequences
  rw [numbers_ofRows]
  cases largest <;> rfl

theorem withNumber_ofRows (next : Option Int64) :
    (ofRows rows largest).withTable (Relation.ofNumber next) = ofRows rows next := by
  have other : ¬(Relation.ofTasks rows).name.lower = (Relation.ofNumber next).name.lower := by
    have apart : ¬(utf8 Relation.tasksName).lower = (utf8 Relation.sequencesName).lower := by
      decide +kernel
    exact apart
  have same : (Relation.ofNumber largest).name.lower = (Relation.ofNumber next).name.lower := rfl
  simp only [withTable, ofRows, List.map_cons, List.map_nil, if_neg other, if_pos same]

end Database

namespace Relation
variable {largest : Option Int64}

/-- A number that is recorded takes the place of the one before. -/
theorem recorded_ofNumber (number : Int64) :
    (ofNumber largest).recorded (utf8 tasksName, number) = ofNumber (some number) := by
  cases largest with
  | none => rfl
  | some before => simp [recorded, ofNumber, sequenceOf?, without, withRow, put]

/-- Only a number that is new is recorded. -/
theorem foldl_recorded {next : Option Int64} (kept : next = largest ∨ next.isSome) :
    ((next.toList.map (fun number => (utf8 tasksName, number))).filter (fun sequence =>
        !(largest.toList.map (fun number => (utf8 tasksName, number))).contains sequence)).foldl
      recorded (ofNumber largest) = ofNumber next := by
  cases next with
  | none =>
    obtain rfl : none = largest := kept.resolve_right nofun
    rfl
  | some number =>
    by_cases same : largest = some number
    · subst same
      simp
    · have fresh : (largest.toList.map (fun number => (utf8 tasksName, number))).contains
          (utf8 tasksName, number) = false := by
        cases largest with
        | none => rfl
        | some before =>
          have apart : ¬number = before := fun equal => same (congrArg some equal.symm)
          simp [apart]
      rw [Option.toList_some, List.map_cons, List.filter_cons_of_pos (by rw [fresh]; rfl)]
      exact recorded_ofNumber number

end Relation

namespace DatabaseStore
variable {store : DatabaseStore} {rows later : List Row} {largest next : Option Int64} {work : Work}

theorem work_about (holds : store.contents = .ofRows rows largest) :
    store.work.About rows largest where
  encoding := by
    change store.contents.encoding = _
    rw [holds]
    exact Database.encoding_prepared
  tables := by
    change store.contents.tables = _
    rw [holds]
    rfl
  ends := by
    change store.contents.sequences.2 = _
    rw [holds, Database.sequences_ofRows]

theorem work_sequences (holds : store.contents = .ofRows rows largest) :
    store.work.sequences = largest.toList.map
      (fun number => (utf8 Relation.tasksName, number)) := by
  change store.contents.sequences.1 = _
  rw [holds, Database.sequences_ofRows]

theorem encoding_ofRows (holds : store.contents = .ofRows rows largest) :
    store.contents.encoding = .bytes := by
  rw [holds]
  exact Database.encoding_prepared

/-- What a statement leaves that has come to other rows and perhaps another number. -/
theorem worked_ofRows (holds : store.contents = .ofRows rows largest)
    (tables : work.tables = [.ofTasks later, .ofNumber largest])
    (numbers : work.sequences = next.toList.map (fun number => (utf8 Relation.tasksName, number)))
    (kept : next = largest ∨ next.isSome) :
    store.worked work true = store.withContents (.ofRows later next) := by
  have changed : ({ store.contents with tables := work.tables } : Database) =
    .ofRows later largest := by
    rw [holds, tables]
    rfl
  unfold worked
  simp only [changed, Database.numbers_ofRows, Database.sequences_ofRows, numbers, if_true]
  rw [Relation.foldl_recorded kept, Database.withNumber_ofRows]

end DatabaseStore
end CodeAudit
