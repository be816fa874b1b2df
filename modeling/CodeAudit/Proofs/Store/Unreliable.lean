import CodeAudit.Proofs.Store.Lawful

/-! Stores whose steps fail now and then. What fails next is anybody's guess and may change between
any two steps of a run, so that every order of failures is covered; what is stored is the business
of the store within. -/
namespace CodeAudit

/-- The steps of the next transaction that will be refused, and why. -/
structure Mishap where
  onBegin : Option Fault := none
  onWrite : Option StoreError := none
  onCommit : Option Fault := none

structure Unreliable (σ : Type) where
  store : σ
  mishap : Mishap := {}

namespace Unreliable
variable {σ τ : Type} [TaskStore σ τ]

open TaskStore

/-- Only the next mishap changes by itself. -/
def Drifts (before after : Unreliable σ) : Prop := after.store = before.store

def begin (u : Unreliable σ) : Except Fault (τ × Unreliable σ) :=
  match u.mishap.onBegin with
  | some fault => .error fault
  | none => (TaskStore.begin u.store).map (fun (handle, store) => (handle, { u with store }))

def commit (handle : τ) (u : Unreliable σ) : Reply (τ × Unreliable σ) (Except Fault Unit) :=
  match u.mishap.onCommit with
  | some fault => { value := .error fault, state := (handle, u) }
  | none => (TaskStore.commit handle u.store).mapState
      (fun (handle, store) => (handle, { u with store }))

def write (column : Task.Column) (task : UInt64) (value : Text) (handle : τ) (u : Unreliable σ) :
    Except StoreError Unit × τ × Unreliable σ :=
  match u.mishap.onWrite with
  | some cause => (.error cause, handle, u)
  | none =>
      let (status, handle, store) := TaskStore.write column task value handle u.store
      (status, handle, { u with store })

instance : TaskStore (Unreliable σ) τ where
  begin := begin
  commit := commit
  rollback handle u :=
    (rollback handle u.store).map (fun (handle, store) => (handle, { u with store }))
  release handle u :=
    let (store, log) := release handle u.store
    ({ u with store }, log)
  isCommitted handle u := isCommitted handle u.store
  insert fresh task handle u :=
    let (insertion, handle, store) := insert fresh task handle u.store
    (insertion, handle, { u with store })
  find? task handle u := (find? task handle u.store).mapState (fun store => { u with store })
  ofProject project handle u :=
    (ofProject project handle u.store).mapState (fun store => { u with store })
  doneInGroup group handle u :=
    (doneInGroup group handle u.store).mapState (fun store => { u with store })
  write := write

theorem release_store (handle : τ) (u : Unreliable σ) :
    (release handle u).1 = { u with store := (release handle u.store).1 } := rfl

variable [Lawful σ]

/-- A transaction that is given up leaves the store as it was begun on. -/
theorem release_begun {base u : Unreliable σ} {change : Task → Task} {handle : τ}
    (same : u.mishap = base.mishap) (transaction : Lawful.Open base.store change handle u.store) :
    (release handle u).1 = base := by
  rw [release_store, Lawful.release_open transaction, same]

instance : Lawful (Unreliable σ) where
  rows u := rows u.store
  mapRows change u := { u with store := mapRows change u.store }
  keep := keep σ
  Fit u := Fit u.store ∧ u.mishap.onBegin = none ∧ u.mishap.onWrite = none ∧
    u.mishap.onCommit = none
  Open base change handle u := u.mishap = base.mishap ∧ Lawful.Open base.store change handle u.store
  rows_mapRows change u := Lawful.rows_mapRows change u.store
  mapRows_id u := by rw [Lawful.mapRows_id]
  mapRows_mapRows first second u := by rw [Lawful.mapRows_mapRows]
  mapRows_congr same := by rw [Lawful.mapRows_congr same]
  mapRows_fit change fit := ⟨Lawful.mapRows_fit change fit.1, fit.2⟩
  begin_open := by
    intro u handle opened began
    simp only [TaskStore.begin, begin] at began
    split at began
    · cases began
    · rcases inner : TaskStore.begin u.store with fault | ⟨token, store⟩
      · simp [inner, Except.map] at began
      · simp only [inner, Except.map, Except.ok.injEq, Prod.mk.injEq] at began
        obtain ⟨rfl, rfl⟩ := began
        exact ⟨rfl, Lawful.begin_open inner⟩
  ofProject_open := by
    rintro base change handle u project ⟨same, transaction⟩
    obtain ⟨state, value⟩ := Lawful.ofProject_open project transaction
    exact ⟨by simp only [TaskStore.ofProject, Reply.mapState, state], value⟩
  doneInGroup_open := by
    rintro base change handle u group ⟨same, transaction⟩
    obtain ⟨state, value⟩ := Lawful.doneInGroup_open group transaction
    exact ⟨by simp only [TaskStore.doneInGroup, Reply.mapState, state], value⟩
  write_open := by
    rintro base change handle u task result later written ⟨same, transaction⟩ wrote
    simp only [TaskStore.write, write] at wrote
    split at wrote
    · cases (Prod.mk.inj wrote).1
    · rcases inner : TaskStore.write .result task result handle u.store with ⟨status, token, store⟩
      simp only [inner, Prod.mk.injEq] at wrote
      obtain ⟨rfl, rfl, rfl⟩ := wrote
      obtain ⟨present, transaction⟩ := Lawful.write_open transaction inner
      exact ⟨present, same, transaction⟩
  write_refused := by
    rintro base change handle u task result cause later written ⟨same, transaction⟩ wrote
    simp only [TaskStore.write, write] at wrote
    split at wrote
    · obtain ⟨_, rfl, rfl⟩ := Prod.mk.inj wrote
      exact ⟨same, transaction⟩
    · rcases inner : TaskStore.write .result task result handle u.store with ⟨status, token, store⟩
      simp only [inner, Prod.mk.injEq] at wrote
      obtain ⟨rfl, rfl, rfl⟩ := wrote
      exact ⟨same, Lawful.write_refused transaction inner⟩
  commit_closes := by
    rintro base change handle u ⟨same, transaction⟩ committed
    simp only [TaskStore.commit, commit] at committed ⊢
    split at committed
    · cases committed
    · have closed := Lawful.commit_closes transaction committed
      simp only [release_store, Reply.mapState, closed, same]
  commit_refused := by
    rintro base change handle u fault ⟨same, transaction⟩ refused
    simp only [TaskStore.commit, commit] at refused ⊢
    split at refused
    · exact release_begun same transaction
    · have restored := Lawful.commit_refused transaction refused
      simp only [release_store, Reply.mapState, restored, same]
  release_open := by
    rintro base change handle u ⟨same, transaction⟩
    exact release_begun same transaction
  begin_fit := by
    rintro u ⟨fit, onBegin, _, _⟩
    obtain ⟨handle, opened, inner⟩ := Lawful.begin_fit fit
    exact ⟨handle, { u with store := opened },
      by simp [TaskStore.begin, begin, onBegin, inner, Except.map]⟩
  write_fit := by
    rintro base change handle u task result ⟨fit, _, onWrite, _⟩ ⟨same, transaction⟩ present
    have inner := Lawful.write_fit result fit transaction present
    simp only [TaskStore.write, write, same, onWrite]
    exact inner
  commit_fit := by
    rintro base change handle u ⟨fit, _, _, onCommit⟩ ⟨same, transaction⟩
    have inner := Lawful.commit_fit fit transaction
    simp only [TaskStore.commit, commit, same, onCommit]
    exact inner

theorem rows_drifts {before after : Unreliable σ} (drifts : Drifts before after) :
    rows after = rows before := by
  have same : after.store = before.store := drifts
  change rows after.store = rows before.store
  rw [same]

end Unreliable
end CodeAudit
