import CodeAudit.Proofs.Database.Writing
import CodeAudit.Proofs.Store.Binding
import CodeAudit.Store.Database
import Mathlib.Data.List.Forall2

/-! How tasks are laid out as rows of cells. What is bound for a task fits the columns, and what is
told by their names comes to stand at their places. Rows are told apart by their uuids. -/
namespace CodeAudit

def Row.task (row : Row) : Task := Relation.forTasks.taskOf .bytes row

/-- The row holds the cells that are bound for its task, and they can be read. -/
structure Row.Kept (row : Row) : Prop where
  legible : row.unread = []
  bound : ∃ own : Cell, own.prefer .integer = own ∧ row.cells = own :: row.task.bound .bytes

/-- The rows stand in the order of their numbers. -/
abbrev Row.InOrder (rows : List Row) : Prop :=
  rows.Pairwise (fun row other => row.number < other.number)

namespace Database

def index (name column : String) : Index :=
  { name := utf8 name
    parts := [(.column (utf8 column), .binary), (.column (utf8 "id"), .binary)] }

end Database

namespace Relation

def ofTasks (rows : List Row) : Relation :=
  { forTasks with
    rows
    indexes := [Database.index Database.groupIndex "group_id",
      Database.index Database.projectIndex "project_id"] }

variable {rows : List Row} {row : Row}

theorem places_ofTasks : Task.readColumns.map forTasks.place? = (List.range 20).map some := by
  decide +kernel

theorem values_forTasks (row : Row) :
    Task.readColumns.map (forTasks.value row) = (List.range 20).map (forTasks.cell row) := by
  have same := congrArg (List.map fun place => (place.map (forTasks.cell row)).getD Cell.null)
    places_ofTasks
  rw [List.map_map, List.map_map] at same
  exact same

end Relation

namespace Row
variable {row : Row}

theorem cells_of_bound {own : Cell} {cells : List Cell} (bound : row.cells = own :: cells)
    (length : cells.length = 19) :
    (List.range 20).map (Relation.forTasks.cell row) = .integer row.number :: cells := by
  have own_place : Relation.forTasks.cell row 0 = .integer row.number := rfl
  have others (place : Nat) : Relation.forTasks.cell row (place + 1) = cells.getD place .null := by
    simp [Relation.cell, Relation.forTasks, bound]
  rw [List.range_succ_eq_map, List.map_cons, List.map_map, own_place]
  refine congrArg (_ :: ·) (List.ext_getElem (by simp [length]) (fun place inside also => ?_))
  simp [others, also]

theorem task_of_bound {own : Cell} {cells : List Cell} (bound : row.cells = own :: cells)
    (length : cells.length = 19) :
    row.task = .ofCells .bytes (.integer row.number :: cells) := by
  have read := (Relation.values_forTasks row).trans (cells_of_bound bound length)
  exact congrArg (Task.ofCells .bytes) read

/-- What is read of a row that was bound for a task is the task up to the NULs of its texts. -/
theorem task_bound (t : Task) (own : Cell) (number : Int64) :
    Row.task { number, cells := own :: t.bound .bytes } =
      Task.asRow { t with id := number.toUInt64 } := by
  let row : Row := { number, cells := own :: t.bound .bytes }
  have read : row.task = .ofCells .bytes (.integer number :: t.bound .bytes) :=
    task_of_bound rfl rfl
  refine read.trans ?_
  change _ = Task.ofCells .bytes (.integer number.toUInt64.toInt64 :: t.bound .bytes)
  rw [Int64.toInt64_toUInt64]

theorem id_task (row : Row) : row.task.id = row.number.toUInt64 :=
  congrArg (fun cells => (Task.ofCells .bytes cells).id) (Relation.values_forTasks row)

theorem toInt64_task (row : Row) : row.task.id.toInt64 = row.number := by
  rw [id_task, Int64.toInt64_toUInt64]

theorem Kept.asRow (kept : row.Kept) : row.task.asRow = row.task := by
  obtain ⟨own, _, bound⟩ := kept.bound
  calc row.task.asRow
    _ = .ofCells .bytes (.integer row.task.id.toInt64 :: row.task.bound .bytes) := rfl
    _ = .ofCells .bytes (.integer row.number :: row.task.bound .bytes) := by rw [toInt64_task]
    _ = row.task := (task_of_bound bound rfl).symm

theorem kept_bound (t : Task) {own : Cell} (fits : own.prefer .integer = own) (number : Int64) :
    Row.Kept { number, cells := own :: t.bound .bytes } := by
  refine ⟨rfl, own, fits, ?_⟩
  rw [task_bound, Task.bound_asRow]
  rfl

end Row

namespace Relation
variable {relation : Relation} {rows : List Row} {row : Row}

structure Fits (column : Column) (cell : Cell) : Prop where
  preferred : cell.prefer column.affinity = cell
  present : column.required.isSome → cell.isNull = false

theorem complete_of_fits (fits : List.Forall₂ Fits relation.columns row.cells) :
    relation.Complete row where
  length := fits.length_eq.symm
  preferred := by
    unfold Relation.preferred
    rw [map_zip_snd fits.length_eq.symm]
    rintro ⟨column, cell⟩ member
    have fit := (List.forall₂_iff_zip.mp fits).2 member
    simp [fit.preferred]
  present := by
    rintro ⟨column, place⟩ member required
    obtain ⟨inside, same⟩ := List.mem_zipIdx' member
    unfold cell
    split
    · rfl
    · have also : place < row.cells.length := fits.length_eq ▸ inside
      have fit := fits.get inside also
      simp only [List.get_eq_getElem, ← same] at fit
      simpa [also] using fit.present required

theorem plain_ofTasks (legible : ∀ row ∈ rows, row.unread = []) : (ofTasks rows).Plain where
  triggers := rfl
  gaps := rfl
  isOpen := rfl
  told := rfl
  firm := by
    have firm : forTasks.columns.all (fun column => column.required != some .replace) := by decide
    intro column member
    simpa using List.all_eq_true.mp firm column member
  checks := rfl
  lax := rfl
  key := rfl
  legible := legible
  indexes := by
    intro index member
    simp only [ofTasks, List.mem_cons, List.not_mem_nil, or_false] at member
    rcases member with rfl | rfl <;> rfl

theorem complete_ofTasks (t : Task) {own : Cell} {number : Int64}
    (fits : own.prefer .integer = own) :
    (ofTasks rows).Complete { number, cells := own :: t.bound .bytes } := by
  have grouped : ((t.groupId.map (Task.textCell .bytes)).getD .null).prefer .text =
      (t.groupId.map (Task.textCell .bytes)).getD .null := by
    cases t.groupId <;> rfl
  refine complete_of_fits (.cons ⟨fits, nofun⟩ ?_)
  iterate 15 refine .cons ⟨rfl, fun _ => rfl⟩ ?_
  refine .cons ⟨grouped, nofun⟩ ?_
  iterate 3 refine .cons ⟨rfl, fun _ => rfl⟩ ?_
  exact .nil

/-- Columns get what is told for them by their names. -/
theorem map_told {columns : List Column} {names : List Text} {cells : List Cell}
    (same : columns.map (fun column => column.name.lower) = names.map Text.lower)
    (distinct : (names.map Text.lower).Nodup) (length : cells.length = names.length) :
    columns.map (fun column =>
      (((names.zip cells).find? (fun (name, _) => name.lower = column.name.lower)).map
        Prod.snd).getD column.fallback) = cells := by
  induction names generalizing columns cells with
  | nil =>
    rw [List.map_nil, List.map_eq_nil_iff] at same
    rw [same, List.eq_nil_of_length_eq_zero length]
    rfl
  | cons name names ih =>
    cases columns with
    | nil => cases same
    | cons column columns =>
      cases cells with
      | nil => cases length
      | cons cell cells =>
        simp only [List.map_cons, List.cons.injEq, List.nodup_cons] at same distinct
        refine congrArg₂ List.cons ?_ ?_
        · simp [same.1]
        · refine Eq.trans (List.map_congr_left (fun other member => ?_))
            (ih same.2 distinct.2 (Nat.succ.inj length))
          have apart : ¬name.lower = other.name.lower := by
            intro equal
            have inside := List.mem_map_of_mem (f := fun column => column.name.lower) member
            rw [same.2, ← equal] at inside
            exact distinct.1 inside
          rw [List.zip_cons_cons, List.find?_cons_of_neg (by simpa using apart)]

theorem names_ofTasks :
    forTasks.columns.map (fun column => column.name.lower) =
        (Task.insertColumnsWithId.map utf8).map Text.lower ∧
      ((Task.insertColumnsWithId.map utf8).map Text.lower).Nodup := by
  decide +kernel

theorem number_ofTasks :
    forTasks.namesNumber (utf8 "id") = true ∧
      ∀ name ∈ Task.insertColumns, forTasks.namesNumber (utf8 name) = false := by
  decide +kernel

/-- The id of a row is given with its cells. -/
theorem valuesFor_id (t : Task) :
    Deed.valuesFor (ofTasks rows)
        ((Task.insertColumnsWithId.map utf8).zip (t.boundWithId .bytes)) =
      (t.boundWithId .bytes, .integer t.id.toInt64) := by
  refine Prod.ext (map_told names_ofTasks.1 names_ofTasks.2 rfl) ?_
  have found : ((Task.insertColumnsWithId.map utf8).zip (t.boundWithId .bytes)).find?
      (fun (name, _) => (ofTasks rows).namesNumber name) =
        some (utf8 "id", .integer t.id.toInt64) := List.find?_cons_of_pos number_ofTasks.1
  exact congrArg (fun value => (value.map Prod.snd).getD Cell.null) found

/-- A row without an id gets all other cells. -/
theorem valuesFor_blank (t : Task) :
    Deed.valuesFor (ofTasks rows) ((Task.insertColumns.map utf8).zip (t.bound .bytes)) =
      (.null :: t.bound .bytes, .null) := by
  obtain ⟨same, distinct⟩ := names_ofTasks
  obtain ⟨first, others⟩ := List.cons.inj same
  obtain ⟨fresh, distinct⟩ := List.nodup_cons.mp distinct
  have untold : ((Task.insertColumns.map utf8).zip (t.bound .bytes)).find? (fun (name, _) =>
      name.lower = (integerColumn "id").name.lower) = none := by
    refine List.find?_eq_none.mpr ?_
    rintro ⟨name, cell⟩ member
    have inside := List.mem_map_of_mem (f := Text.lower) (List.of_mem_zip member).1
    intro equal
    exact fresh (of_decide_eq_true equal ▸ inside)
  have unnumbered : ((Task.insertColumns.map utf8).zip (t.bound .bytes)).find? (fun (name, _) =>
      (ofTasks rows).namesNumber name) = none := by
    refine List.find?_eq_none.mpr ?_
    rintro ⟨name, cell⟩ member
    obtain ⟨plain, inside, rfl⟩ := List.mem_map.mp (List.of_mem_zip member).1
    have other : (ofTasks rows).namesNumber (utf8 plain) = false := number_ofTasks.2 plain inside
    simp [other]
  refine Prod.ext ?_ ?_
  · refine congrArg₂ List.cons ?_ (map_told others distinct rfl)
    exact congrArg (fun value => (value.map Prod.snd).getD Cell.null) untold
  · exact congrArg (fun value => (value.map Prod.snd).getD Cell.null) unnumbered

end Relation

namespace Cell

theorem compareTexts_eq_iff {a b : Text} : compareTexts a b = .eq ↔ a = b := by
  unfold compareTexts
  constructor
  · intro same
    split at same
    · cases same
    next notBelow =>
      split at same
      · cases same
      next notAbove => exact List.le_antisymm (List.not_lt.mp notAbove) (List.not_lt.mp notBelow)
  · rintro rfl
    simp [List.lt_irrefl]

theorem equals_text (a b : Text) : (Cell.text a).equals .binary (.text b) = decide (a = b) := by
  have same : (compareTexts a b == .eq) = decide (a = b) := by
    rw [Bool.eq_iff_iff, beq_iff_eq, compareTexts_eq_iff, decide_eq_true_iff]
  simpa [equals, isNull, compareTo, Collation.key] using same

end Cell

theorem Row.Kept.uuid {row : Row} (kept : row.Kept) :
    row.task.uuid.beforeNul = row.task.uuid := by
  have same := congrArg Task.uuid kept.asRow
  rwa [Task.asRow_eq] at same

namespace Relation
variable {rows : List Row} {row : Row}

def uuidRule : UniqueRule :=
  { index := utf8 ("sqlite_autoindex_" ++ tasksName ++ "_1")
    parts := [(.column (utf8 "uuid"), .binary)] }

theorem place_uuid : (ofTasks rows).placeOf? (utf8 "uuid") = some 1 := by
  have found : forTasks.placeOf? (utf8 "uuid") = some 1 := by decide +kernel
  exact found

theorem cell_ofTasks (kept : row.Kept) (place : Nat) :
    (ofTasks rows).cell row (place + 1) = (row.task.bound .bytes).getD place .null := by
  obtain ⟨own, _, bound⟩ := kept.bound
  simp only [cell, ofTasks, forTasks, Option.some.injEq, Nat.zero_ne_add_one,
    if_false, bound, List.getD_cons_succ]

theorem keyUnder_uuid (kept : row.Kept) :
    (ofTasks rows).keyUnder .bytes uuidRule row = .ok (some [.text row.task.uuid]) := by
  have read := Expr.eval_column (@place_uuid rows) .bytes .indexing row
  have whole : (row.task.bound .bytes).getD 0 .null = .text row.task.uuid :=
    congrArg Cell.text kept.uuid
  rw [cell_ofTasks kept, whole] at read
  unfold keyUnder listedUnder
  simp only [uuidRule, List.mapM_cons, List.mapM_nil, read]
  rfl

theorem findM?_ok {α ε : Type} {l : List α} {p : α → Except ε Bool} {q : α → Bool}
    (told : ∀ a ∈ l, p a = .ok (q a)) : l.findM? p = .ok (l.find? q) := by
  induction l with
  | nil => rfl
  | cons a rest ih =>
    obtain ⟨first, others⟩ := List.forall_mem_cons.mp told
    unfold List.findM?
    rw [first, ih others]
    cases found : q a with
    | true => rw [List.find?_cons_of_pos found]; rfl
    | false => rw [List.find?_cons_of_neg (by simp [found])]; rfl

theorem uuidIndex_ofTasks : (ofTasks rows).indexes.find? (fun index =>
    index.name.lower == uuidRule.index.lower) = none := by
  have absent : (ofTasks []).indexes.find? (fun index =>
    index.name.lower == uuidRule.index.lower) = none := by decide +kernel
  exact absent

/-- A row repeats the first one that has its uuid. -/
theorem clashing?_ofTasks (keeps : ∀ row ∈ rows, row.Kept) (kept : row.Kept) :
    (ofTasks rows).clashing? .bytes uuidRule none row =
      .ok (rows.find? (fun other => other.task.uuid = row.task.uuid)) := by
  have repeated (other : Row) (member : other ∈ rows) :
      ((ofTasks rows).keyUnder .bytes uuidRule other >>= fun key? =>
        pure (key?.any (sameKey uuidRule [.text row.task.uuid])) : Except Signal Bool) =
          .ok (decide (other.task.uuid = row.task.uuid)) := by
    have same := Cell.equals_text row.task.uuid other.task.uuid
    rw [keyUnder_uuid (keeps other member)]
    change Except.ok ((Cell.text row.task.uuid).equals .binary (.text other.task.uuid) && true) = _
    rw [same, Bool.and_true, decide_eq_decide.mpr eq_comm]
  unfold clashing?
  rw [keyUnder_uuid kept]
  simp only [uuidIndex_ofTasks]
  have all : (ofTasks rows).rows.filter (fun other => decide (some other.number ≠ none) &&
      !(Option.getD none uuidRule.toIndex).missing.contains other.number) = rows := by
    refine List.filter_eq_self.mpr (fun other _ => ?_)
    simp [uuidRule, UniqueRule.toIndex]
  change (List.findM? _ _ >>= _ : Except Signal (Option Row)) = _
  rw [all, findM?_ok repeated]
  change Except.ok (Option.or _ none) = _
  rw [Option.or_none]

end Relation
end CodeAudit
