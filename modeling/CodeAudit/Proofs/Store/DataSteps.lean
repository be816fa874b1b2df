import CodeAudit.Proofs.Store.Backends

/-! What a transaction is made of. A data step does to an open transaction what it does to contents
that nobody else works on; a commit leaves the contents as they have become, and every other end
leaves them as they were. -/
namespace CodeAudit

/-- What can be asked within a transaction. -/
inductive DataStep where
  | insert (task : Task)
  | find (id : UInt64)
  | ofProject (project : Text)
  | doneInGroup (group : Text)
  | write (column : Task.Column) (id : UInt64) (value : Text)
deriving DecidableEq, Repr

inductive DataStep.Answer where
  | inserted (insertion : Insertion)
  | found (task : Option Task)
  | listed (tasks : List Task)
  | wrote (status : Except StoreError Unit)

/-- An insertion was refused because no id is left. -/
def DataStep.Answer.Exhausted (answer : DataStep.Answer) : Prop :=
  ∃ task, answer = .inserted { status := .error (.engine .full), task }

namespace TaskStore

def perform {σ τ : Type} [TaskStore σ τ] (fresh : Fresh) (step : DataStep) (handle : τ)
    (store : σ) :
    DataStep.Answer × τ × σ :=
  match step with
  | .insert task =>
      let (insertion, handle, store) := insert fresh task handle store
      (.inserted insertion, handle, store)
  | .find id => (.found (find? id handle store).value, handle, (find? id handle store).state)
  | .ofProject project =>
      (.listed (ofProject project handle store).value, handle,
        (ofProject project handle store).state)
  | .doneInGroup group =>
      (.listed (doneInGroup group handle store).value, handle,
        (doneInGroup group handle store).state)
  | .write column id value =>
      let (status, handle, store) := write column id value handle store
      (.wrote status, handle, store)

/-- A store of which transactions change the contents as a whole or not at all. `Working base
contents handle store` says that a transaction begun on `base` is open and has come to `contents`;
`Lost base handle store`, that one begun on `base` has ended by itself. -/
class Atomic (σ : Type) {τ : outParam Type} [TaskStore σ τ] where
  Contents : Type
  /-- A step on contents that nobody else works on. -/
  apply : Fresh → DataStep → Contents → DataStep.Answer × Contents
  /-- No transaction is open. -/
  Rest : Contents → σ → Prop
  Working : Contents → Contents → τ → σ → Prop
  Lost : Contents → τ → σ → Prop
  /-- The handle of a transaction that has been committed or rolled back. -/
  Finished : Bool → τ → Prop
  begin_working : Rest contents store → begin store = .ok (handle, opened) →
    Working contents contents handle opened
  perform_working : Working base contents handle store →
    perform fresh step handle store = (answer, later, after) →
    answer = (apply fresh step contents).1 ∧
      (Working base (apply fresh step contents).2 later after ∨ answer.Exhausted ∧
        Lost base later after)
  commit_working : Working base contents handle store → ∃ later after,
    commit handle store = { value := .ok (), state := (later, after) } ∧ Finished true later ∧
      Rest contents after
  rollback_working : Working base contents handle store → ∃ later after,
    rollback handle store = .ok (later, after) ∧ Finished false later ∧ Rest base after
  release_working : Working base contents handle store → Rest base (release handle store).1
  isCommitted_working (other : σ) : Working base contents handle store →
    isCommitted handle other = false
  lost_rest : Lost base handle store → Rest base store
  commit_lost : Lost base handle store →
    ∃ fault, commit handle store = { value := .error fault, state := (handle, store) }
  rollback_lost : Lost base handle store → ∃ fault, rollback handle store = .error fault
  release_lost : Lost base handle store → (release handle store).1 = store
  isCommitted_lost (other : σ) : Lost base handle store → isCommitted handle other = false
  commit_finished (store : σ) : Finished committed handle → ∃ name,
    commit handle store = { value := .error (.transactionFinished name), state := (handle, store) }
  rollback_finished (store : σ) : Finished committed handle →
    rollback handle store = .ok (handle, store)
  release_finished (store : σ) : Finished committed handle → (release handle store).1 = store
  isCommitted_finished (store : σ) : Finished committed handle →
    isCommitted handle store = committed

export Atomic (Contents apply Rest)

end TaskStore

open TaskStore

namespace MemoryStore

def apply (fresh : Fresh) (step : DataStep) (contents : MemoryStore.Contents) :
    DataStep.Answer × MemoryStore.Contents :=
  let (answer, handle, _) := perform fresh step { contents } ({} : MemoryStore)
  (answer, handle.contents)

/-- Steps touch nothing but the working copy. -/
theorem perform_eq (fresh : Fresh) (step : DataStep) (handle : Handle) (store : MemoryStore) :
    perform fresh step handle store =
      ((apply fresh step handle.contents).1,
        { handle with contents := (apply fresh step handle.contents).2 }, store) := by
  cases step <;> rfl

/-- There is always another id. -/
theorem not_exhausted (fresh : Fresh) (step : DataStep) (contents : MemoryStore.Contents) :
    ¬(apply fresh step contents).1.Exhausted := by
  rintro ⟨task, same⟩
  cases step with
  | insert given =>
    simp only [apply, perform, TaskStore.insert, DataStep.Answer.inserted.injEq] at same
    unfold Contents.insert at same
    split at same
    · cases congrArg Insertion.status same
    · cases congrArg Insertion.status same
  | find | ofProject | doneInGroup | write => cases same

instance : Atomic MemoryStore where
  Contents := MemoryStore.Contents
  apply := apply
  Rest contents store := store.committed = contents
  Working base contents handle store := store.committed = base ∧ handle.stage = .working ∧
    handle.contents = contents
  Lost _ _ _ := False
  Finished committed handle := handle.stage = if committed then .committed else .rolledBack
  begin_working := by
    rintro contents store handle opened rfl began
    obtain ⟨rfl, rfl⟩ := Prod.mk.inj (Except.ok.inj began)
    exact ⟨rfl, rfl, rfl⟩
  perform_working := by
    rintro base contents handle store fresh step answer later after ⟨rfl, stage, rfl⟩ done
    rw [perform_eq] at done
    obtain ⟨rfl, rfl, rfl⟩ := by simpa only [Prod.mk.injEq] using done
    exact ⟨rfl, .inl ⟨rfl, stage, rfl⟩⟩
  commit_working := by
    rintro base contents handle store ⟨rfl, stage, rfl⟩
    refine ⟨{ contents := { handle.contents with tasks := [] }, stage := .committed },
      { committed := handle.contents },
      ?_, rfl, rfl⟩
    simp only [TaskStore.commit, MemoryStore.commit, stage]
  rollback_working := by
    rintro base contents handle store ⟨rfl, stage, rfl⟩
    refine ⟨{ handle with stage := .rolledBack }, store, ?_, rfl, rfl⟩
    simp only [TaskStore.rollback, MemoryStore.rollback, stage]
  release_working working := working.1
  isCommitted_working := by
    rintro base contents handle store other ⟨_, stage, _⟩
    simp [isCommitted, stage]
  lost_rest := nofun
  commit_lost := nofun
  rollback_lost := nofun
  release_lost := nofun
  isCommitted_lost _ := nofun
  commit_finished := by
    rintro committed handle store finished
    refine ⟨"memory", ?_⟩
    cases committed <;> simp [TaskStore.commit, MemoryStore.commit, finished]
  rollback_finished := by
    rintro committed handle store finished
    cases committed <;> simp [TaskStore.rollback, MemoryStore.rollback, finished]
  release_finished _ _ := rfl
  isCommitted_finished := by
    rintro committed handle store finished
    cases committed <;> simp [isCommitted, finished]

end MemoryStore

namespace TableStore

/-- A statement on a connection without a transaction is one of its own. -/
def apply (fresh : Fresh) (step : DataStep) (store : TableStore) : DataStep.Answer × TableStore :=
  let (answer, _, after) := perform fresh step ({} : Connection.Handle) store
  (answer, after)

theorem perform_eq (fresh : Fresh) (step : DataStep) (handle : Connection.Handle)
    (store : TableStore) :
    perform fresh step handle store =
      ((apply fresh step store).1, handle, (apply fresh step store).2) := by
  cases step <;> rfl

theorem apply_insert (fresh : Fresh) (task : Task) (store : TableStore) :
    apply fresh (.insert task) store =
    (.inserted (store.insert fresh task).1, (store.insert fresh task).2) := rfl

theorem apply_write (fresh : Fresh) (column : Task.Column) (id : UInt64) (value : Text)
    (store : TableStore) :
    apply fresh (.write column id value) store =
      (.wrote (store.writing (fun table => table.write column id value)).1,
        (store.writing (fun table => table.write column id value)).2) := rfl

/-- The same connection with a transaction open. -/
def within (before : Option TaskTable) (store : TableStore) : TableStore :=
  { store with restore := some before }

variable {before : Option TaskTable} {store : TableStore}

theorem eq_within (pending : store.restore = some before) :
    store = within before { store with restore := none } := by
  obtain ⟨_, _, _, _, _⟩ := store
  cases pending
  rfl

theorem writing_within (statement : TaskTable → Except StoreError TaskTable) :
    (within before store).writing statement =
      ((store.writing statement).1, within before (store.writing statement).2) := by
  unfold writing
  have same : (within before store).contents = store.contents := rfl
  have writes : Connection.refusesWrites (within before store) = store.refusesWrites := rfl
  rw [same, writes]
  split
  · rfl
  · split
    · rfl
    · split <;> rfl

theorem listing_within (before : Option TaskTable) (store : TableStore)
    (query : TaskTable → List Task) :
    ((within before store).listing query).value = (store.listing query).value ∧
      ((within before store).listing query).state = within before (store.listing query).state := by
  unfold listing
  have same : (within before store).contents = store.contents := rfl
  rw [same]
  split <;> exact ⟨rfl, rfl⟩

/-! The ways an insertion can go. -/

variable {fresh : Fresh} {task : Task}

theorem insert_own (own : task.id ≠ 0) : store.insert fresh task =
    ({ status := (store.writing (fun table => table.insertRow (task.fill fresh).asRow)).1,
       task := task.fill fresh },
      (store.writing (fun table => table.insertRow (task.fill fresh).asRow)).2) := if_pos own

theorem insert_numbered {id : Int64} (blank : task.id = 0)
    (next : store.contents.map TaskTable.nextId? = some (some id)) :
    let numbered := { task.fill fresh with id := id.toUInt64 }
    let wrote := store.writing (fun table => table.insertRow numbered.asRow)
    store.insert fresh task =
      ({ status := wrote.1, task := if wrote.1.isOk then numbered else task.fill fresh },
        wrote.2) := by
  have unnumbered : ¬(task.fill fresh).id ≠ 0 := fun own => own blank
  simp only [insert, if_neg unnumbered, next]

theorem insert_refused (blank : task.id = 0)
    (next : store.contents.map TaskTable.nextId? = some none) :
    store.insert fresh task =
      if store.refusesWrites then
        ({ status := .error (.engine .readOnly), task := task.fill fresh }, store)
      else ({ status := .error (.engine .full), task := task.fill fresh }, store.abandon) := by
  have unnumbered : ¬(task.fill fresh).id ≠ 0 := fun own => own blank
  simp only [insert, if_neg unnumbered, next]

theorem insert_missing (blank : task.id = 0) (next : store.contents.map TaskTable.nextId? = none) :
    store.insert fresh task =
      ({ status := .error (.engine .noTable), task := task.fill fresh }, store) := by
  have unnumbered : ¬(task.fill fresh).id ≠ 0 := fun own => own blank
  simp only [insert, if_neg unnumbered, next]

/-- Inside a transaction an insertion does the same, unless it ends the transaction. -/
theorem insert_within (before : Option TaskTable) (fresh : Fresh) (task : Task)
    (free : store.restore = none) :
    (within before store).insert fresh task =
        ((store.insert fresh task).1, within before (store.insert fresh task).2) ∨
      store.insert fresh task =
        ({ status := .error (.engine .full), task := task.fill fresh }, store) ∧
        (within before store).insert fresh task =
          ((store.insert fresh task).1, { store with contents := before }) := by
  have same : (within before store).contents = store.contents := rfl
  have writes : Connection.refusesWrites (within before store) = store.refusesWrites := rfl
  by_cases own : task.id ≠ 0
  · rw [insert_own own, insert_own own, writing_within]
    exact .inl rfl
  · have blank : task.id = 0 := Decidable.not_not.mp own
    rcases next : store.contents.map TaskTable.nextId? with _ | _ | id
    · rw [insert_missing blank next, insert_missing blank (same ▸ next)]
      exact .inl rfl
    · rw [insert_refused blank next, insert_refused blank (same ▸ next), writes]
      split
      · exact .inl rfl
      · have alone : store.abandon = store := by simp only [Connection.abandon, free]
        rw [alone]
        refine .inr ⟨rfl, ?_⟩
        simp only [within, Connection.abandon, free]
    · rw [insert_numbered blank next, insert_numbered blank (same ▸ next), writing_within]
      exact .inl rfl

/-- Without a transaction to give up, an insertion that is refused changes nothing. -/
theorem insert_cases (free : store.restore = none) (fresh : Fresh) (task : Task) :
    (∃ cause left, store.insert fresh task = ({ status := .error cause, task := left }, store)) ∨
      ∃ own after, store.insert fresh task =
        ({ status := .ok (), task := { task.fill fresh with id := own } }, after) ∧
        store.writing (fun table => table.insertRow { task.fill fresh with id := own }.asRow) =
          (.ok (), after) := by
  by_cases own : task.id ≠ 0
  · rw [insert_own own]
    rcases outcome : store.writing
      (fun table => table.insertRow (task.fill fresh).asRow) with ⟨cause | ⟨⟩, after⟩
    · exact .inl ⟨cause, task.fill fresh, by rw [writing_error outcome]⟩
    · exact .inr ⟨task.id, after, rfl, outcome⟩
  · have blank : task.id = 0 := Decidable.not_not.mp own
    rcases next : store.contents.map TaskTable.nextId? with _ | _ | id
    · exact .inl ⟨_, _, insert_missing blank next⟩
    · have alone : store.abandon = store := by simp only [Connection.abandon, free]
      rw [insert_refused blank next, alone]
      split
      · exact .inl ⟨_, _, rfl⟩
      · exact .inl ⟨_, _, rfl⟩
    · rw [insert_numbered blank next]
      rcases outcome : store.writing
          (fun table => table.insertRow { task.fill fresh with
            id := id.toUInt64 }.asRow) with ⟨cause | ⟨⟩, after⟩
      · obtain rfl := writing_error outcome
        simp only [outcome]
        exact .inl ⟨cause, task.fill fresh, rfl⟩
      · simp only [outcome]
        exact .inr ⟨id.toUInt64, after, rfl, outcome⟩

theorem listing_state (query : TaskTable → List Task) : (store.listing query).state = store := by
  unfold listing
  split <;> rfl

/-- A step without a transaction leaves everything as it was, or changes the table by one insertion
or write. -/
theorem apply_cases (fresh : Fresh) (step : DataStep) (free : store.restore = none) :
    (apply fresh step store).2 = store ∨ ∃ table changed, store.contents = some table ∧
      (apply fresh step store).2 = { store with contents := some changed } ∧
      ((∃ task : Task, table.insertRow task.asRow = .ok changed) ∨
        ∃ column id value, table.write column id value = .ok changed) := by
  cases step with
  | insert task =>
    rw [apply_insert]
    rcases insert_cases free fresh task with ⟨cause, left, refused⟩ | ⟨own, after, accepted, wrote⟩
    · rw [refused]
      exact .inl rfl
    · obtain ⟨table, changed, contents, inserted, rfl⟩ := writing_ok wrote
      rw [accepted]
      exact .inr ⟨table, changed, contents, rfl, .inl ⟨_, inserted⟩⟩
  | find id => exact .inl rfl
  | ofProject project => exact .inl (listing_state _)
  | doneInGroup group => exact .inl (listing_state _)
  | write column id value =>
    rw [apply_write]
    rcases wrote : store.writing (fun table => table.write column id value) with ⟨cause | ⟨⟩, after⟩
    · exact .inl (writing_error wrote)
    · obtain ⟨table, changed, contents, done, rfl⟩ := writing_ok wrote
      exact .inr ⟨table, changed, contents, rfl, .inr ⟨column, id, value, done⟩⟩

/-- A step without a transaction changes the contents of the connection and nothing else. -/
theorem apply_frame (fresh : Fresh) (step : DataStep) (free : store.restore = none) :
    (apply fresh step store).2 =
      { store with contents := (apply fresh step store).2.contents } := by
  rcases apply_cases fresh step free with same | ⟨_, _, _, same, _⟩
  · rw [same]
  · rw [same]

/-- A step inside a transaction. -/
theorem apply_within (before : Option TaskTable) (fresh : Fresh) (step : DataStep)
    (free : store.restore = none) :
    (apply fresh step (within before store)).1 = (apply fresh step store).1 ∧
      ((apply fresh step (within before store)).2 = within before (apply fresh step store).2 ∨
        (apply fresh step store).1.Exhausted ∧
          (apply fresh step (within before store)).2 = { store with contents := before }) := by
  cases step with
  | insert task =>
    rw [apply_insert, apply_insert]
    rcases insert_within before fresh task free with same | ⟨refused, same⟩
    · rw [same]
      exact ⟨rfl, .inl rfl⟩
    · rw [same]
      exact ⟨rfl, .inr ⟨⟨task.fill fresh, by rw [refused]⟩, rfl⟩⟩
  | find id => exact ⟨rfl, .inl rfl⟩
  | ofProject project =>
    obtain ⟨value, state⟩ := listing_within before store (fun table => table.ofProject project)
    exact ⟨congrArg DataStep.Answer.listed value, .inl state⟩
  | doneInGroup group =>
    obtain ⟨value, state⟩ := listing_within before store (fun table => table.doneInGroup group)
    exact ⟨congrArg DataStep.Answer.listed value, .inl state⟩
  | write column id value =>
    rw [apply_write, apply_write, writing_within]
    exact ⟨rfl, .inl rfl⟩

theorem commit?_within (free : store.restore = none) :
    (within before store).commit? = .ok store := by
  simp only [Connection.commit?, within, ← free]

theorem rollback?_within {base : TableStore} (free : base.restore = none)
    (frame : store = { base with contents := store.contents }) :
    (within base.contents store).rollback? = .ok base := by
  rw [frame]
  simp only [Connection.rollback?, within, ← free]

instance : Atomic TableStore where
  Contents := TableStore
  apply := apply
  Rest contents store := store = contents ∧ contents.restore = none
  Working base contents handle store :=
    base.restore = none ∧ contents = { base with contents := contents.contents } ∧
    handle.stage = .working ∧ store = within base.contents contents
  Lost base handle store := store = base ∧ base.restore = none ∧ handle.stage = .working
  Finished committed handle := handle.stage = if committed then .committed else .rolledBack
  begin_working := by
    rintro contents store handle after ⟨rfl, free⟩ began
    obtain ⟨_, stage, rfl⟩ := begin_opens began
    exact ⟨free, rfl, stage, by rw [opened, mapRows_self]; rfl⟩
  perform_working := by
    rintro base contents handle store fresh step answer later after ⟨free, frame, stage, rfl⟩ done
    have alone : contents.restore = none := by rw [frame, free]
    rw [perform_eq] at done
    obtain ⟨rfl, rfl, rfl⟩ := by simpa only [Prod.mk.injEq] using done
    obtain ⟨same, kept | ⟨exhausted, lost⟩⟩ := apply_within base.contents fresh step alone
    · refine ⟨same, .inl ⟨free, ?_, stage, kept⟩⟩
      rw [apply_frame fresh step alone, frame]
    · refine ⟨same, .inr ⟨same ▸ exhausted, ?_, free, stage⟩⟩
      rw [lost, frame]
  commit_working := by
    rintro base contents handle store ⟨free, frame, stage, rfl⟩
    have alone : contents.restore = none := by rw [frame, free]
    refine ⟨{ stage := .committed }, contents, ?_, rfl, rfl, alone⟩
    have done : Connection.commit handle (within base.contents contents) =
        .ok ({ stage := .committed }, contents) := by
      simp only [Connection.commit, stage, commit?_within alone]
      rfl
    simp only [TaskStore.commit, done, Reply.ofOutcome]
  rollback_working := by
    rintro base contents handle store ⟨free, frame, stage, rfl⟩
    refine ⟨{ stage := .rolledBack }, base, ?_, rfl, rfl, free⟩
    simp only [TaskStore.rollback, Connection.rollback, stage, rollback?_within free frame]
    rfl
  release_working := by
    rintro base contents handle store ⟨free, frame, stage, rfl⟩
    refine ⟨?_, free⟩
    simp only [TaskStore.release, Connection.release, stage, rollback?_within free frame]
  isCommitted_working := by
    rintro base contents handle store other ⟨_, _, stage, _⟩
    simp [isCommitted, stage]
  lost_rest := by
    rintro base handle store ⟨rfl, free, _⟩
    exact ⟨rfl, free⟩
  commit_lost := by
    rintro base handle store ⟨rfl, free, stage⟩
    have refused : Connection.commit handle store = .error (.engine .nothingToCommit) := by
      simp only [Connection.commit, Connection.commit?, stage, free]
      rfl
    exact ⟨.engine .nothingToCommit, by simp only [TaskStore.commit, refused, Reply.ofOutcome]⟩
  rollback_lost := by
    rintro base handle store ⟨rfl, free, stage⟩
    refine ⟨.engine .nothingToRollBack, ?_⟩
    simp only [TaskStore.rollback, Connection.rollback, Connection.rollback?, stage, free]
    rfl
  release_lost := by
    rintro base handle store ⟨rfl, free, stage⟩
    simp [TaskStore.release, Connection.release, Connection.rollback?, stage, free]
  isCommitted_lost := by
    rintro base handle store other ⟨_, _, stage⟩
    simp [isCommitted, stage]
  commit_finished := by
    rintro committed handle store finished
    have refused : Connection.commit handle store = .error (.transactionFinished "sqlite") := by
      cases committed <;> simp [Connection.commit, finished]
    exact ⟨"sqlite", by simp only [TaskStore.commit, refused, Reply.ofOutcome]⟩
  rollback_finished := by
    rintro committed handle store finished
    cases committed <;> simp [TaskStore.rollback, Connection.rollback, finished]
  release_finished := by
    rintro committed handle store finished
    cases committed <;> simp [TaskStore.release, Connection.release, finished]
  isCommitted_finished := by
    rintro committed handle store finished
    cases committed <;> simp [isCommitted, finished]

end TableStore
end CodeAudit
