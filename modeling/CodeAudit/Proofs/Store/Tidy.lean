import CodeAudit.Proofs.Store.Backends
import CodeAudit.Proofs.Store.Binding
import Mathlib.Algebra.Group.Nat.Defs
import Mathlib.Data.List.TakeWhile

/-! The order that the stores keep their rows in. Ids increase, unsigned or signed, and the table
holds no text that goes on after a NUL; insertions and writes keep it so. -/
namespace CodeAudit

open TaskStore

namespace MemoryStore

def Tidy (rows : List Task) : Prop := rows.Pairwise (fun first second => first.id < second.id)

theorem mem_place {task row : Task} {rows : List Task} (member : row ∈ Contents.place task rows) :
    row = task ∨ row ∈ rows := by
  induction rows with
  | nil => exact .inl (List.mem_singleton.mp member)
  | cons first rest ih =>
    simp only [Contents.place] at member
    split at member
    · exact List.mem_cons.mp member
    · split at member
      · exact (List.mem_cons.mp member).imp_right (List.mem_cons_of_mem _)
      · rcases List.mem_cons.mp member with rfl | member
        · exact .inr List.mem_cons_self
        · exact (ih member).imp_right (List.mem_cons_of_mem _)

theorem place_tidy {rows : List Task} (tidy : Tidy rows) (task : Task) :
    Tidy (Contents.place task rows) := by
  induction rows with
  | nil => exact List.pairwise_singleton _ _
  | cons first rest ih =>
    obtain ⟨above, tail⟩ := List.pairwise_cons.mp tidy
    simp only [Contents.place]
    split
    next below =>
      refine List.pairwise_cons.mpr ⟨fun row member => ?_, tidy⟩
      rcases List.mem_cons.mp member with rfl | member
      · exact below
      · exact UInt64.lt_trans below (above row member)
    next notBelow =>
      split
      next same => exact List.pairwise_cons.mpr ⟨fun row member => same ▸ above row member, tail⟩
      next other =>
        refine List.pairwise_cons.mpr ⟨fun row member => ?_, ih tail⟩
        rcases mem_place member with rfl | member
        · exact UInt64.lt_of_le_of_ne (UInt64.not_lt.mp notBelow) (Ne.symm other)
        · exact above row member

theorem insert_tidy {contents : Contents} (tidy : Tidy contents.tasks) (fresh : Fresh)
    (task : Task) :
    Tidy (contents.insert fresh task).2.tasks := by
  unfold Contents.insert
  split
  · exact tidy
  · exact place_tidy tidy _

theorem map_tidy {rows : List Task} (tidy : Tidy rows) {change : Task → Task}
    (same : ∀ row, (change row).id = row.id) : Tidy (rows.map change) := by
  unfold Tidy at tidy ⊢
  simpa only [List.pairwise_map, same] using tidy

theorem write_tidy {contents : Contents} (tidy : Tidy contents.tasks) (column : Task.Column)
    (task : UInt64) (value : Text) : Tidy (contents.write column task value).2.tasks := by
  unfold Contents.write
  split
  · exact tidy
  · refine map_tidy tidy (fun row => ?_)
    split
    · cases column <;> rfl
    · rfl

end MemoryStore

theorem Task.asRow_idem (task : Task) : task.asRow.asRow = task.asRow := by
  simp [Task.asRow_eq, Task.cut, Text.beforeNul_idem, Function.comp_def]

theorem Task.asRow_write (task : Task) (column : Task.Column) (value : Text) :
    (task.write column value).asRow = task.asRow.write column value.beforeNul := by
  simp only [Task.asRow_eq]
  cases column <;> rfl

namespace TaskTable

/-- Rows in increasing order of signed ids, with every text as the table keeps it. -/
structure Tidy (rows : List Task) : Prop where
  ordered : rows.Pairwise (fun first second => first.id.toInt64 < second.id.toInt64)
  kept : ∀ row ∈ rows, row.asRow = row

theorem place_perm (row : Task) (rows : List Task) : (place row rows).Perm (row :: rows) := by
  induction rows with
  | nil => exact .refl _
  | cons first rest ih =>
    simp only [place]
    split
    · exact .refl _
    · exact (ih.cons first).trans (.swap row first rest)

theorem mem_place {row other : Task} {rows : List Task} : other ∈ place row rows ↔
    other = row ∨ other ∈ rows := by
  rw [(place_perm row rows).mem_iff, List.mem_cons]

theorem place_ordered {row : Task} {rows : List Task} (fresh : ∀ other ∈ rows, other.id ≠ row.id)
    (ordered : rows.Pairwise (fun first second => first.id.toInt64 < second.id.toInt64)) :
    (place row rows).Pairwise (fun first second => first.id.toInt64 < second.id.toInt64) := by
  induction rows with
  | nil => exact List.pairwise_singleton _ _
  | cons first rest ih =>
    obtain ⟨above, tail⟩ := List.pairwise_cons.mp ordered
    simp only [place]
    split
    next below =>
      refine List.pairwise_cons.mpr ⟨fun other member => ?_, ordered⟩
      rcases List.mem_cons.mp member with rfl | member
      · exact below
      · exact Int64.lt_trans below (above other member)
    next notBelow =>
      have rest := ih (fun other member => fresh other (List.mem_cons_of_mem _ member)) tail
      refine List.pairwise_cons.mpr ⟨fun other member => ?_, rest⟩
      rcases mem_place.mp member with rfl | member
      · refine Int64.lt_of_le_of_ne (Int64.not_lt.mp notBelow) (fun same => ?_)
        exact fresh first List.mem_cons_self (congrArg Int64.toUInt64 same)
      · exact above other member

theorem insertRow_tidy {table after : TaskTable} (tidy : Tidy table.rows) {task : Task}
    (inserted : table.insertRow task.asRow = .ok after) : Tidy after.rows := by
  unfold insertRow find? at inserted
  split at inserted
  · cases inserted
  next absent =>
    split at inserted
    · cases inserted
    · obtain rfl := Except.ok.inj inserted
      have fresh : ∀ other ∈ table.rows, other.id ≠ task.asRow.id := by
        simpa only [List.find?_isSome, decide_eq_true_eq, not_exists, not_and] using absent
      refine ⟨place_ordered fresh tidy.ordered, fun row member => ?_⟩
      rcases mem_place.mp member with rfl | member
      · exact task.asRow_idem
      · exact tidy.kept row member

theorem write_tidy {table after : TaskTable} (tidy : Tidy table.rows) {column : Task.Column}
    {task : UInt64} {value : Text} (wrote : table.write column task value = .ok after) :
    Tidy after.rows := by
  obtain ⟨_, rfl⟩ := TableStore.write_ok wrote
  refine ⟨?_, fun row member => ?_⟩
  · simp only [TableStore.mapTable, List.pairwise_map]
    refine tidy.ordered.imp (fun {first second} below => ?_)
    have same (row : Task) : (if row.id = task then row.write column value.beforeNul else row).id =
        row.id := by
      split
      · cases column <;> rfl
      · rfl
    rwa [same, same]
  · obtain ⟨before, inside, rfl⟩ := List.mem_map.mp member
    have kept := tidy.kept before inside
    split
    · rw [Task.asRow_write, kept, Text.beforeNul_idem]
    · exact kept

end TaskTable

/-- The two stores that runs are made over. -/
inductive Backend where
  | memory
  | table
deriving DecidableEq

namespace Backend

def Store : Backend → Type
  | memory => MemoryStore
  | table => TableStore

def Handle : Backend → Type
  | memory => MemoryStore.Handle
  | table => Connection.Handle

instance (backend : Backend) : TaskStore backend.Store backend.Handle :=
  match backend with
  | memory => inferInstanceAs (TaskStore MemoryStore MemoryStore.Handle)
  | table => inferInstanceAs (TaskStore TableStore Connection.Handle)

instance (backend : Backend) : Lawful backend.Store :=
  match backend with
  | memory => inferInstanceAs (Lawful MemoryStore)
  | table => inferInstanceAs (Lawful TableStore)

/-- Rows as the store keeps them, whatever transactions do. -/
def Tidy : (backend : Backend) → List Task → Prop
  | memory, rows => MemoryStore.Tidy rows
  | table, rows => TaskTable.Tidy rows

variable {backend : Backend} {rows : List Task}

theorem Tidy.distinct (tidy : backend.Tidy rows) : (rows.map Task.id).Nodup := by
  refine List.pairwise_map.mpr ?_
  cases backend with
  | memory =>
    refine List.Pairwise.imp (fun {first second} below same => ?_) tidy
    exact UInt64.lt_irrefl _ (same ▸ below)
  | table =>
    refine tidy.ordered.imp (fun {first second} below same => ?_)
    exact Int64.lt_irrefl (same ▸ below)

/-- A text without a NUL is kept as it is. -/
theorem keep_plain {text : Text} (plain : backend = .table → 0 ∉ text) :
    keep backend.Store text = text := by
  cases backend with
  | memory => rfl
  | table =>
    refine List.takeWhile_eq_self_iff.mpr (fun byte member => ?_)
    exact bne_iff_ne.mpr (fun null => plain rfl (null ▸ member))

theorem Tidy.group_kept (tidy : backend.Tidy rows) {row : Task} (member : row ∈ rows) {group : Text}
    (grouped : row.groupId = some group) : keep backend.Store group = group := by
  cases backend with
  | memory => rfl
  | table =>
    have kept := congrArg Task.groupId (tidy.kept row member)
    rw [Task.asRow_eq, Task.cut, grouped] at kept
    exact Option.some.inj kept

/-- Numbers on one side of the sign are in the same order, signed or unsigned. -/
theorem lt_iff_same_side {first second : UInt64} (below : first.toInt64 < second.toInt64) :
    first < second ↔ (first.toNat < 2 ^ 63 ↔ second.toNat < 2 ^ 63) := by
  rw [Int64.lt_iff_toInt_lt] at below
  simp only [UInt64.toInt64, Int64.toInt, BitVec.toInt_eq_toNat_cond, Int64.toBitVec] at below
  have same (id : UInt64) : id.toBitVec.toNat = id.toNat := rfl
  simp only [same] at below
  rw [UInt64.lt_iff_toNat_lt]
  have bound := first.toNat_lt
  have other := second.toNat_lt
  omega

/-- Ids increase also as unsigned numbers, unless the table holds ids that are negative as signed
ones. -/
theorem Tidy.ordered (tidy : backend.Tidy rows)
    (small : backend = .table → ∀ row ∈ rows, row.id.toNat < 2 ^ 63) :
    rows.Pairwise (fun first second => first.id < second.id) := by
  cases backend with
  | memory => exact tidy
  | table =>
    refine List.Pairwise.imp_of_mem ?_ (TaskTable.Tidy.ordered tidy)
    intro first second inside also below
    exact (lt_iff_same_side below).mpr
      (iff_of_true (small rfl first inside) (small rfl second also))

end Backend
end CodeAudit
