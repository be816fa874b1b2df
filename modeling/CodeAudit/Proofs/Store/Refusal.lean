import CodeAudit.Proofs.Store.Atomicity

/-! What an insertion that is refused leaves behind. In memory that is nothing. On the table the
task has been filled in by then, and running out of ids takes the open transaction back with it. -/
namespace CodeAudit

open TaskStore

theorem Task.fill_preset {task : Task} (fresh : Fresh) (identified : task.uuid ≠ [])
    (dated : task.createdAt ≠ 0) :
    task.fill fresh = task := by
  rw [Task.fill, if_neg (by simpa using identified), if_neg dated]

section Stores

variable {fresh : Fresh} {task row : Task} {insertion : Insertion} {cause : StoreError}

/-- In memory only a taken id is refused, before anything is done. -/
theorem MemoryStore.insert_error {handle later : Handle} {store after : MemoryStore}
    (inserted : TaskStore.insert fresh task handle store = (insertion, later, after))
    (refused : insertion.status = .error cause) :
    insertion.task = task ∧ later = handle ∧ after = store ∧ cause = .taken task.id := by
  by_cases taken : task.id ≠ 0 ∧ (handle.contents.find? task.id).isSome
  · simp only [TaskStore.insert, Contents.insert, if_pos taken, Prod.mk.injEq] at inserted
    obtain ⟨rfl, rfl, rfl⟩ := inserted
    exact ⟨rfl, rfl, rfl, (Except.error.inj refused).symm⟩
  · simp only [TaskStore.insert, Contents.insert, if_neg taken, Prod.mk.injEq] at inserted
    obtain ⟨rfl, -⟩ := inserted
    contradiction

namespace TableStore
variable {store after : TableStore}

theorem insertRow_error {table : TaskTable} (refused : table.insertRow row = .error cause) :
    ∃ column, cause = .repeated column := by
  unfold TaskTable.insertRow at refused
  split at refused
  · exact ⟨_, (Except.error.inj refused).symm⟩
  · split at refused
    · exact ⟨_, (Except.error.inj refused).symm⟩
    · contradiction

/-- Adding a row fails for other reasons than a want of ids, and then changes nothing. -/
theorem writing_row_error
    (wrote : store.writing (fun table => table.insertRow row) = (.error cause, after)) :
    after = store ∧ cause ≠ .engine .full := by
  refine ⟨writing_error wrote, ?_⟩
  unfold writing at wrote
  split at wrote
  · rw [← Except.error.inj (Prod.mk.inj wrote).1]
    decide
  · split at wrote
    · rw [← Except.error.inj (Prod.mk.inj wrote).1]
      decide
    · split at wrote
      · cases (Prod.mk.inj wrote).1
      next refused =>
        obtain ⟨column, repeated⟩ := insertRow_error refused
        rw [← Except.error.inj (Prod.mk.inj wrote).1, repeated]
        exact nofun

/-- A refused insertion has filled in the task, and leaves the store alone unless it has run out of
ids. -/
theorem insert_refusal {told : Insertion × TableStore} (inserted : store.insert fresh task = told)
    (refused : told.1.status = .error cause) :
    told.1.task = task.fill fresh ∧ told.2 = if cause = .engine .full then store.abandon
      else store := by
  by_cases own : task.id ≠ 0
  · rcases wrote : store.writing
      (fun table => table.insertRow (task.fill fresh).asRow) with ⟨status, left⟩
    rw [insert_own own, wrote] at inserted
    subst inserted
    obtain rfl : status = .error cause := refused
    obtain ⟨alone, other⟩ := writing_row_error wrote
    exact ⟨rfl, by rw [alone, if_neg other]⟩
  · have blank : task.id = 0 := Decidable.not_not.mp own
    rcases next : store.contents.map TaskTable.nextId? with _ | _ | id
    · rw [insert_missing blank next] at inserted
      subst inserted
      obtain rfl := Except.error.inj refused
      exact ⟨rfl, rfl⟩
    · rw [insert_refused blank next] at inserted
      subst inserted
      by_cases readOnly : store.refusesWrites
      · rw [if_pos readOnly] at refused ⊢
        obtain rfl := Except.error.inj refused
        exact ⟨rfl, rfl⟩
      · rw [if_neg readOnly] at refused ⊢
        obtain rfl := Except.error.inj refused
        exact ⟨rfl, rfl⟩
    · rcases wrote : store.writing (fun table =>
        table.insertRow { task.fill fresh with id := id.toUInt64 }.asRow) with ⟨status, left⟩
      rw [insert_numbered blank next, wrote] at inserted
      subst inserted
      obtain rfl : status = .error cause := refused
      obtain ⟨alone, other⟩ := writing_row_error wrote
      exact ⟨rfl, by rw [alone, if_neg other]⟩

/-- A transaction is open and has changed something. -/
def Pending (store : TableStore) : Prop :=
  ∃ before, store.restore = some before ∧ before ≠ store.contents

theorem abandon_contents : store.abandon.contents = store.contents ↔ ¬Pending store := by
  unfold Connection.abandon Pending
  rcases store.restore with _ | before
  · simp
  · simp

theorem insert_error {handle later : Connection.Handle}
    (inserted : TaskStore.insert fresh task handle store = (insertion, later, after))
    (refused : insertion.status = .error cause) :
    insertion.task = task.fill fresh ∧ later = handle ∧
      (after.contents = store.contents ↔ ¬(cause = .engine .full ∧ Pending store)) := by
  rcases wrote : store.insert fresh task with ⟨told, left⟩
  simp only [TaskStore.insert, wrote, Prod.mk.injEq] at inserted
  obtain ⟨rfl, rfl, rfl⟩ := inserted
  obtain ⟨filled, same⟩ := insert_refusal wrote refused
  obtain rfl : left = if cause = .engine .full then store.abandon else store := same
  refine ⟨filled, rfl, ?_⟩
  by_cases full : cause = .engine .full
  · rw [if_pos full, abandon_contents]
    simp only [full, true_and]
  · rw [if_neg full]
    exact iff_of_true rfl (fun both => full both.1)

end TableStore

end Stores

namespace Backend

/-- The rows that a transaction works on, with what their numbering goes by. -/
def View : Backend → Type
  | memory => MemoryStore.Contents
  | table => Option TaskTable

def view : {backend : Backend} → backend.Handle → backend.Store → backend.View
  | memory, handle, _ => MemoryStore.Handle.contents handle
  | table, _, store => Connection.contents store

/-- A transaction has changed something that the connection can take back by itself. -/
def Pending : {backend : Backend} → backend.Store → Prop
  | memory, _ => False
  | table, store => TableStore.Pending store

variable {backend : Backend} {handle later : backend.Handle} {store after : backend.Store}
  {fresh : Fresh} {task : Task} {insertion : Insertion} {cause : StoreError}

/-- After an insertion that is refused the caller has the task as before exactly if the store is the
one in memory or nothing was to be filled in, and the transaction sees what it saw unless ids have
run out after it has changed something. -/
theorem refused_insertion_harmless
    (inserted : TaskStore.insert fresh task handle store = (insertion, later, after))
    (refused : insertion.status = .error cause) :
    (insertion.task = task ↔ backend = .memory ∨ task.fill fresh = task) ∧ later = handle ∧
      (view later after = view handle store ↔ ¬(cause = .engine .full ∧ Pending store)) := by
  cases backend with
  | memory =>
    obtain ⟨same, rfl, rfl, -⟩ := MemoryStore.insert_error inserted refused
    exact ⟨iff_of_true same (.inl rfl), rfl, iff_of_true rfl (fun full => full.2)⟩
  | table =>
    obtain ⟨filled, same, seen⟩ := TableStore.insert_error inserted refused
    exact ⟨by simp [filled], same, seen⟩

/-- A second task under an id that is taken is refused in the middle of a transaction. It brings its
uuid and time. -/
theorem refused_insertion_harmless_preset :
    let store : TableStore :=
      { contents := some { rows := [draft 1 "a"], sequence := 1 }, restore := some (some {}) }
    let told := TaskStore.insert ⟨utf8 "new", 7⟩ (draft 1 "b") ({} : Connection.Handle) store
    told.1.status = .error (.repeated "id") ∧ told.1.task = draft 1 "b" ∧
      told.2.2.contents = store.contents := by
  intro store told
  have refused : told.1.status = .error (.repeated "id") := rfl
  have preset : (draft 1 "b").fill ⟨utf8 "new", 7⟩ = draft 1 "b" :=
    Task.fill_preset _ (by decide) (by decide)
  have inserted : TaskStore.insert ⟨utf8 "new", 7⟩ (draft 1 "b") ({} : Connection.Handle) store =
      (told.1, told.2.1, told.2.2) := rfl
  obtain ⟨kept, -, seen⟩ := @refused_insertion_harmless .table _ _ _ _ _ _ _ _ inserted refused
  exact ⟨refused, kept.mpr (.inr preset), seen.mpr nofun⟩

/-- A task that is refused by the table is no longer blank. -/
theorem refused_insertion_fills :
    let store : TableStore :=
      { contents := some { rows := [draft 1 "a"], sequence := 1 }, restore := some (some {}) }
    let told := (TaskStore.insert ⟨utf8 "new", 7⟩ { id := 1 } ({} : Connection.Handle) store).1
    told.status = .error (.repeated "id") ∧ told.task ≠ { id := 1 } := by
  decide

end Backend
end CodeAudit
