import CodeAudit.Store

/-! What runs rely on in a store of tasks. A store is seen as a list of rows, and a transaction as a
change of rows that is made as a whole or not at all, whatever is refused on the way. -/
namespace CodeAudit

def Task.amend (id : UInt64) (result : Text) (t : Task) : Task :=
  if t.id = id then t.write .result result else t

namespace TaskStore

/-- A store seen as a list of rows. `Open base change handle store` says that a transaction begun on
`base` is open and would leave the rows of `base` changed by `change`. -/
class Lawful (σ : Type) {τ : outParam Type} [TaskStore σ τ] where
  rows : σ → List Task
  mapRows : (Task → Task) → σ → σ
  /-- What is kept of a text. -/
  keep : Text → Text
  /-- No step of a transaction will be refused. -/
  Fit : σ → Prop
  Open : σ → (Task → Task) → τ → σ → Prop
  rows_mapRows (change : Task → Task) (store : σ) : rows (mapRows change store) =
    (rows store).map change
  mapRows_id (store : σ) : mapRows id store = store
  mapRows_mapRows (first second : Task → Task) (store : σ) :
    mapRows second (mapRows first store) = mapRows (second ∘ first) store
  mapRows_congr : (∀ row ∈ rows store, first row = second row) →
    mapRows first store = mapRows second store
  mapRows_fit (change : Task → Task) : Fit store → Fit (mapRows change store)
  begin_open : begin store = .ok (handle, opened) → Open store id handle opened
  ofProject_open (project : Text) : Open base change handle store →
    (ofProject project handle store).state = store ∧
    (ofProject project handle store).value =
      ((rows base).map change).filter (fun t => t.projectId = keep project)
  doneInGroup_open (group : Text) : Open base change handle store →
    (doneInGroup group handle store).state = store ∧
    (doneInGroup group handle store).value =
      ((rows base).map change).filter (fun t => t.groupId = some (keep group) ∧ t.isDone)
  write_open : Open base change handle store →
    write Task.Column.result task result handle store = (.ok (), later, written) →
    (∃ row ∈ (rows base).map change, row.id = task) ∧
      Open base (Task.amend task (keep result) ∘ change) later written
  write_refused : Open base change handle store →
    write Task.Column.result task result handle store = (.error cause, later, written) →
    Open base change later written
  commit_closes : Open base change handle store → (commit handle store).value = .ok () →
    (release (commit handle store).state.1 (commit handle store).state.2).1 = mapRows change base
  commit_refused : Open base change handle store → (commit handle store).value = .error fault →
    (release (commit handle store).state.1 (commit handle store).state.2).1 = base
  release_open : Open base change handle store → (release handle store).1 = base
  begin_fit : Fit store → ∃ handle opened, begin store = .ok (handle, opened)
  write_fit (result : Text) : Fit base → Open base change handle store →
    (∃ row ∈ (rows base).map change, row.id = task) →
      (write Task.Column.result task result handle store).1 = .ok ()
  commit_fit : Fit base → Open base change handle store → (commit handle store).value = .ok ()

export Lawful (rows mapRows keep Fit)

variable {σ τ : Type} [TaskStore σ τ] [Lawful σ] {store : σ}

/-- A transaction that only reads leaves the store as it was, also when it is refused. -/
theorem alone_reads {α : Type} {step : τ → σ → Reply (τ × σ) (Except Fault α)} {answer : α}
    (reads : ∀ handle opened, Lawful.Open store id handle opened →
      (step handle opened).state = (handle, opened) ∧ (step handle opened).value = .ok answer) :
    (alone step store).state = store ∧ ((alone step store).value = .ok answer ∨
      ¬Fit store ∧ ∃ fault, (alone step store).value = .error fault) := by
  unfold alone
  rcases began : begin store with fault | ⟨handle, opened⟩
  · refine ⟨rfl, .inr ⟨fun fit => ?_, fault, rfl⟩⟩
    obtain ⟨handle, opened, began'⟩ := Lawful.begin_fit fit
    rw [began'] at began
    contradiction
  · have transaction := Lawful.begin_open began
    obtain ⟨state, value⟩ := reads handle opened transaction
    simp only [state, value]
    rcases committed : (commit handle opened).value with fault | ⟨⟩
    · refine ⟨Lawful.commit_refused transaction committed, .inr ⟨fun fit => ?_, fault, rfl⟩⟩
      rw [Lawful.commit_fit fit transaction] at committed
      contradiction
    · refine ⟨?_, .inl rfl⟩
      rw [Lawful.commit_closes transaction committed, Lawful.mapRows_id]

theorem projectTasks_reads (store : σ) (project : Text) :
    (projectTasks project store).state = store ∧
      ((projectTasks project store).value =
          .ok ((rows store).filter (fun t => t.projectId = keep σ project)) ∨
        ¬Fit store ∧ ∃ fault, (projectTasks project store).value = .error fault) := by
  refine alone_reads (fun handle opened transaction => ?_)
  obtain ⟨state, value⟩ := Lawful.ofProject_open project transaction
  simp only [state, value, List.map_id, and_self]

theorem finishedSiblings_reads (store : σ) (group : Text) :
    (finishedSiblings group store).state = store ∧
      ((finishedSiblings group store).value =
          .ok ((rows store).filter (fun t => t.groupId = some (keep σ group) ∧ t.isDone)) ∨
        ¬Fit store ∧ ∃ fault, (finishedSiblings group store).value = .error fault) := by
  refine alone_reads (fun handle opened transaction => ?_)
  obtain ⟨state, value⟩ := Lawful.doneInGroup_open group transaction
  simp only [state, value, List.map_id, and_self]

/-- A result is saved as a whole or the store stays as it was. -/
theorem saveResult_writes (store : σ) (task : UInt64) (result : Text) :
    ((saveResult task result store).value = .ok () ∧ (∃ row ∈ rows store, row.id = task) ∧
      (saveResult task result store).state = mapRows (Task.amend task (keep σ result)) store) ∨
    (∃ fault, (saveResult task result store).value = .error fault) ∧
      (saveResult task result store).state = store ∧
      (Fit store → ∀ row ∈ rows store, row.id ≠ task) := by
  unfold saveResult alone
  rcases began : begin store with fault | ⟨handle, opened⟩
  · refine .inr ⟨⟨fault, rfl⟩, rfl, fun fit => ?_⟩
    obtain ⟨handle, opened, began'⟩ := Lawful.begin_fit fit
    rw [began'] at began
    contradiction
  · have transaction := Lawful.begin_open began
    rcases wrote : write Task.Column.result task result handle
      opened with ⟨cause | ⟨⟩, later, written⟩
    · simp only [wrote]
      refine .inr ⟨⟨_, rfl⟩, Lawful.release_open (Lawful.write_refused transaction wrote),
        fun fit => ?_⟩
      intro row member same
      have fine := Lawful.write_fit result fit transaction ⟨row, by simpa using member, same⟩
      rw [wrote] at fine
      contradiction
    · obtain ⟨present, transaction⟩ := Lawful.write_open transaction wrote
      rw [List.map_id] at present
      have fine : (Except.ok () : Except StoreError Unit).mapError (Fault.notSaved task) = .ok () :=
        rfl
      simp only [wrote, fine]
      rcases committed : (commit later written).value with fault | ⟨⟩
      · refine .inr ⟨⟨fault, rfl⟩, Lawful.commit_refused transaction committed, fun fit => ?_⟩
        rw [Lawful.commit_fit fit transaction] at committed
        contradiction
      · exact .inl ⟨rfl, present, Lawful.commit_closes transaction committed⟩

end TaskStore
end CodeAudit
