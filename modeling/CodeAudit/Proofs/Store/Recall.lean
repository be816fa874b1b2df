import CodeAudit.Proofs.Store.Correspondence

/-! What is read back of a row. It is what the accepted steps of committed transactions have given,
text for text, and it stays so whatever other transactions do about other rows. -/
namespace CodeAudit

open TaskStore

namespace DataStep

/-- The step has been accepted and is about the row with the id. -/
def Concerns (id : UInt64) : DataStep → Answer → Prop
  | insert _, .inserted ⟨.ok (), stored⟩ => stored.id = id
  | write _ other _, .wrote (.ok ()) => other = id
  | _, _ => False

/-- The row with the id after a step, if every text is kept as it was given. -/
def recount (id : UInt64) (fresh : Fresh) : DataStep → Answer → Option Task → Option Task
  | insert task, .inserted ⟨.ok (), stored⟩, held => if stored.id = id then
      some { task.fill fresh with id } else held
  | write column other value, .wrote (.ok ()), held => if other = id then
      held.map (·.write column value) else held
  | _, _, held => held

variable {id : UInt64} {fresh : Fresh} {step : DataStep} {answer : Answer}

theorem recount_apart (apart : ¬step.Concerns id answer) (held : Option Task) :
    step.recount id fresh answer held = held := by
  unfold recount
  split
  next task stored => exact if_neg apart
  next column other value => exact if_neg apart
  next => rfl

def Plain (fresh : Fresh) (step : DataStep) : Prop := 0 ∉ fresh.uuid ∧ ∀ text ∈ step.texts, 0 ∉ text

theorem Plain.filled {task : Task} (plain : (insert task).Plain fresh) (id : UInt64) :
    { task.fill fresh with id }.asRow = { task.fill fresh with id } := by
  refine Task.asRow_plain (fun text member => ?_)
  rcases Task.fill_texts (t := task) member with rfl | member
  · exact plain.1
  · exact plain.2 text member

end DataStep

theorem find?_write (rows : List Task) (column : Task.Column) (value : Text) (other id : UInt64) :
    (rows.map (fun t => if t.id = other then t.write column value else t)).find?
      (fun t => t.id = id) =
      if other = id then (rows.find? (fun t => t.id = id)).map (·.write column value)
      else rows.find? (fun t => t.id = id) := by
  induction rows with
  | nil => simp
  | cons first rest ih =>
    have same : (if first.id = other then first.write column value else first).id = first.id := by
      split
      · cases column <;> rfl
      · rfl
    rw [List.map_cons]
    by_cases here : first.id = id
    · rw [List.find?_cons_of_pos (by simpa only [same] using decide_eq_true here),
        List.find?_cons_of_pos (by simpa using here)]
      by_cases meant : other = id
      · rw [if_pos meant, if_pos (here.trans meant.symm), Option.map_some]
      · rw [if_neg meant, if_neg (fun also => meant (also.symm.trans here))]
    · rw [List.find?_cons_of_neg (by simpa only [same, decide_eq_true_eq] using here),
        List.find?_cons_of_neg (by simpa using here), ih]

namespace MemoryStore

theorem find?_place (task : Task) (rows : List Task) (id : UInt64) :
    (Contents.place task rows).find? (fun t => t.id = id) =
      if task.id = id then some task else rows.find? (fun t => t.id = id) := by
  induction rows with
  | nil => by_cases own : task.id = id <;> simp [Contents.place, own]
  | cons first rest ih =>
    simp only [Contents.place]
    split
    · by_cases own : task.id = id <;> simp [own]
    · split
      next same => by_cases own : task.id = id <;> simp [← same, own]
      next other =>
        by_cases here : first.id = id
        · have apart : task.id ≠ id := fun own => other (own.trans here.symm)
          simp [here, apart]
        · simp [here, ih]

theorem find?_apply (fresh : Fresh) (step : DataStep) (contents : Contents) (id : UInt64) :
    (apply fresh step contents).2.find? id =
      step.recount id fresh (apply fresh step contents).1 (contents.find? id) := by
  cases step with
  | insert task =>
    simp only [apply, perform, TaskStore.insert, Contents.insert]
    split
    · rfl
    · generalize (if task.id = 0 then contents.nextId else task.id) = own
      simp only [Contents.find?, find?_place, DataStep.recount]
      by_cases same : own = id
      · subst same
        rfl
      · exact (if_neg same).trans (if_neg same).symm
  | write column other value =>
    simp only [apply, perform, TaskStore.write, Contents.write]
    split
    · rfl
    · exact find?_write contents.tasks column value other id
  | find | ofProject | doneInGroup => rfl

end MemoryStore

namespace TaskTable

theorem find?_place {row : Task} {rows : List Task} (absent : ∀ other ∈ rows, other.id ≠ row.id)
    (id : UInt64) :
    (place row rows).find? (fun t => t.id = id) =
      if row.id = id then some row else rows.find? (fun t => t.id = id) := by
  induction rows with
  | nil => by_cases own : row.id = id <;> simp [place, own]
  | cons first rest ih =>
    obtain ⟨other, absent⟩ := List.forall_mem_cons.mp absent
    simp only [place]
    split
    · by_cases own : row.id = id <;> simp [own]
    · by_cases here : first.id = id
      · have apart : row.id ≠ id := fun own => other (here.trans own.symm)
        simp [here, apart]
      · simp [here, ih absent]

theorem find?_insertRow {table after : TaskTable} {row : Task}
    (inserted : table.insertRow row = .ok after) (id : UInt64) :
    after.find? id = if row.id = id then some row else table.find? id := by
  unfold insertRow at inserted
  split at inserted
  · cases inserted
  next absent =>
    split at inserted
    · cases inserted
    · obtain rfl := Except.ok.inj inserted
      refine find?_place ?_ id
      simpa only [find?, List.find?_isSome, decide_eq_true_eq, not_exists, not_and] using absent

end TaskTable

namespace TableStore
variable {store : TableStore} {fresh : Fresh}

def held (id : UInt64) (store : TableStore) : Option Task :=
  store.contents.bind (fun table => table.find? id)

theorem held_apply {step : DataStep} (free : store.restore = none) (id : UInt64)
    (plain : step.Concerns id (apply fresh step store).1 → step.Plain fresh) :
    held id (apply fresh step store).2 = step.recount id fresh (apply fresh step store).1
      (held id store) := by
  cases step with
  | insert task =>
    rw [apply_insert] at plain ⊢
    rcases insert_cases free fresh task with ⟨cause, left, refused⟩ | ⟨own, after, accepted, wrote⟩
    · rw [refused]
      rfl
    · rw [accepted] at plain ⊢
      obtain ⟨table, changed, contents, inserted, rfl⟩ := writing_ok wrote
      simp only [held, contents, Option.bind_some, DataStep.recount,
        TaskTable.find?_insertRow inserted]
      by_cases same : own = id
      · rw [(plain same).filled own, if_pos same, if_pos same, same]
      · exact (if_neg same).trans (if_neg same).symm
  | write column other value =>
    rw [apply_write] at plain ⊢
    rcases wrote : store.writing
      (fun table => table.write column other value) with ⟨cause | ⟨⟩, after⟩
    · rw [writing_error wrote]
      rfl
    · obtain ⟨table, changed, contents, done, rfl⟩ := writing_ok wrote
      obtain ⟨_, rfl⟩ := write_ok done
      simp only [held, contents, Option.bind_some, DataStep.recount, TaskTable.find?, mapTable,
        find?_write]
      by_cases same : other = id
      · rw [wrote] at plain
        have kept : value.beforeNul = value :=
          beforeNul_plain ((plain same).2 value List.mem_cons_self)
        rw [if_pos same, if_pos same, kept]
      · rw [if_neg same, if_neg same]
  | find => rfl
  | ofProject project => exact congrArg (held id) (listing_state _)
  | doneInGroup group => exact congrArg (held id) (listing_state _)

theorem begin_contents {handle : Connection.Handle} {opened : TableStore}
    (began : Connection.begin store = .ok (handle, opened)) (contents : Option TaskTable) :
    ∃ opened, Connection.begin { store with contents } = .ok (handle, opened) := by
  unfold Connection.begin Connection.open? at began ⊢
  split at began
  · cases began
  next writes =>
    rw [if_neg writes]
    split at began
    · cases began
    next closed =>
      rw [if_neg closed]
      obtain ⟨rfl, _⟩ := Prod.mk.inj (Except.ok.inj began)
      exact ⟨_, rfl⟩

end TableStore

namespace Backend
variable {backend : Backend}

def held (id : UInt64) : {backend : Backend} → Contents backend.Store → Option Task
  | memory, contents => MemoryStore.Contents.find? contents id
  | table, contents => TableStore.held id contents

def Ready : {backend : Backend} → Contents backend.Store → Prop
  | memory, _ => True
  | table, contents => ∃ handle opened, Connection.begin contents = .ok (handle, opened)

variable {contents base : Contents backend.Store} {store opened after : backend.Store}
  {handle later : backend.Handle} {id : UInt64} {row : Option Task} {fresh : Fresh}
  {step : DataStep} {answer : DataStep.Answer}

theorem held_rest (rest : Rest contents store) :
    held id contents = (rows store).find? (fun row => row.id = id) := by
  cases backend with
  | memory =>
    obtain rfl : MemoryStore.committed store = contents := rest
    rfl
  | table =>
    obtain ⟨rfl, _⟩ : store = contents ∧ contents.restore = none := rest
    change (Connection.contents store).bind _ =
      (((Connection.contents store).map TaskTable.rows).getD []).find? _
    cases Connection.contents store <;> rfl

theorem Ready.begins (ready : Ready contents) (rest : Rest contents store) :
    ∃ handle opened, begin store = .ok (handle, opened) := by
  cases backend with
  | memory => exact ⟨_, _, rfl⟩
  | table =>
    obtain ⟨rfl, _⟩ : store = contents ∧ contents.restore = none := rest
    exact ready

theorem begin_ready (began : begin store = .ok (handle, opened)) :
    ∃ contents, Rest contents store ∧ Ready contents := by
  cases backend with
  | memory => exact ⟨MemoryStore.committed store, rfl, trivial⟩
  | table => exact ⟨store, ⟨rfl, (TableStore.begin_opens began).1⟩, handle, opened, began⟩

theorem Ready.apply (ready : Ready contents) (fresh : Fresh) (step : DataStep) :
    Ready (TaskStore.apply fresh step contents).2 := by
  cases backend with
  | memory => trivial
  | table =>
    obtain ⟨handle, opened, began⟩ := ready
    have free := (TableStore.begin_opens began).1
    obtain ⟨opened, begins⟩ :=
      TableStore.begin_contents began (TableStore.apply fresh step contents).2.contents
    exact ⟨handle, opened, (TableStore.apply_frame fresh step free) ▸ begins⟩

theorem held_apply (ready : Ready contents) (id : UInt64)
    (plain : backend = .table → step.Concerns id (apply fresh step contents).1 → step.Plain fresh) :
    held id (apply fresh step contents).2 =
      step.recount id fresh (apply fresh step contents).1 (held id contents) := by
  cases backend with
  | memory => exact MemoryStore.find?_apply fresh step contents id
  | table =>
    obtain ⟨handle, opened, began⟩ := ready
    exact TableStore.held_apply (TableStore.begin_opens began).1 id (plain rfl)

/-- In a transaction that has ended by itself a step changes the store at once. -/
theorem perform_lost (lost : Atomic.Lost base handle store)
    (done : perform fresh step handle store = (answer, later, after)) :
    answer = (apply fresh step base).1 ∧ Atomic.Lost (apply fresh step base).2 later after := by
  cases backend with
  | memory => exact lost.elim
  | table =>
    obtain ⟨rfl, free, stage⟩ : store = base ∧ base.restore = none ∧ handle.stage = .working := lost
    have performed := (TableStore.perform_eq fresh step handle store).symm.trans done
    obtain ⟨rfl, changed⟩ := Prod.mk.inj performed
    obtain ⟨rfl, rfl⟩ := Prod.mk.inj changed
    have same := congrArg Connection.restore (TableStore.apply_frame fresh step free)
    exact ⟨rfl, rfl, same.trans free, stage⟩

/-! ### Rows that others leave alone -/

/-- The contents hold the row, and a transaction can begin on them. -/
structure Holds (id : UInt64) (row : Option Task) (contents : Contents backend.Store) : Prop where
  ready : Ready contents
  held : held id contents = row

theorem Holds.apply (holds : Holds id row contents)
    (apart : ¬step.Concerns id (TaskStore.apply fresh step contents).1) :
    Holds id row (TaskStore.apply fresh step contents).2 := by
  refine ⟨holds.ready.apply fresh step, ?_⟩
  rw [held_apply holds.ready id (fun _ concerns => absurd concerns apart),
    DataStep.recount_apart apart, holds.held]

/-- What an open transaction has come to holds the row, and so does what is there without it. -/
inductive Sees (id : UInt64) (row : Option Task) (handle : backend.Handle)
    (store : backend.Store) : Prop where
  | working {base contents : Contents backend.Store} : Atomic.Working base contents handle store →
      Holds id row base → Holds id row contents → Sees id row handle store
  | lost {base : Contents backend.Store} : Atomic.Lost base handle store → Holds id row base →
      Sees id row handle store

theorem Sees.perform (sees : Sees id row handle store)
    (done : TaskStore.perform fresh step handle store = (answer, later, after))
    (apart : ¬step.Concerns id answer) :
    Sees id row later after := by
  cases sees with
  | working working below above =>
    obtain ⟨rfl, kept | ⟨_, lost⟩⟩ := Atomic.perform_working working done
    · exact .working kept below (above.apply apart)
    · exact .lost lost below
  | lost lost below =>
    obtain ⟨rfl, lost⟩ := perform_lost lost done
    exact .lost lost (below.apply apart)

variable {draw : Request → Fresh} {requests : List Request} {transaction : Transaction}
  {program : Program}

theorem Sees.performAll (sees : Sees id row handle store)
    (apart : ∀ entry ∈ requests.zip (TaskStore.performAll draw requests handle store).1,
      ¬entry.1.step.Concerns id entry.2) :
    Sees id row (TaskStore.performAll draw requests handle store).2.1
      (TaskStore.performAll draw requests handle store).2.2 := by
  induction requests generalizing handle store with
  | nil => exact sees
  | cons request rest ih =>
    rcases done : TaskStore.perform (draw request) request.step handle
      store with ⟨answer, later, after⟩
    simp only [TaskStore.performAll, done, List.zip_cons_cons, List.forall_mem_cons] at apart ⊢
    exact ih (sees.perform done apart.1) apart.2

theorem conclude_lost (lost : Atomic.Lost base handle store) (ending : Ending) :
    (conclude ending handle store).2 = store ∧
      (ending = .commit → ∃ fault, (conclude ending handle store).1 = .error fault) := by
  have released := Atomic.release_lost lost
  cases ending with
  | commit =>
    obtain ⟨fault, refused⟩ := Atomic.commit_lost lost
    simp only [conclude, refused, released, true_and]
    exact fun _ => ⟨fault, rfl⟩
  | rollback =>
    obtain ⟨fault, refused⟩ := Atomic.rollback_lost lost
    simp [conclude, refused, released]
  | drop => simpa [conclude] using released

theorem Sees.conclude (sees : Sees id row handle store) (ending : Ending) :
    ∃ contents, Rest contents (TaskStore.conclude ending handle store).2 ∧
      Holds id row contents := by
  cases sees with
  | working working below above =>
    obtain ⟨after, ended, rest⟩ := conclude_working working ending
    rw [ended]
    refine ⟨_, rest, ?_⟩
    split
    · exact above
    · exact below
  | @lost base lost below =>
    rw [(conclude_lost lost ending).1]
    exact ⟨base, Atomic.lost_rest lost, below⟩

/-- The transaction has accepted nothing about the row with the id. -/
def Apart (id : UInt64) (transaction : Transaction) : Except Fault Transcript → Prop
  | .ok transcript => ∀ entry ∈ transaction.requests.zip transcript.answers,
      ¬entry.1.step.Concerns id entry.2
  | .error _ => True

theorem transact_holds (rest : Rest contents store) (holds : Holds id row contents)
    (apart : Apart id transaction (transact draw transaction store).1) :
    ∃ after, Rest after (transact draw transaction store).2 ∧ Holds id row after := by
  obtain ⟨handle, opened, began⟩ := holds.ready.begins rest
  have working := Atomic.begin_working rest began
  simp only [transact, began] at apart ⊢
  exact ((Sees.working working holds holds).performAll apart).conclude transaction.ending

theorem runProgram_holds (rest : Rest contents store) (holds : Holds id row contents)
    (apart : List.Forall₂ (Apart id) program (runProgram draw program store).1) :
    ∃ after, Rest after (runProgram draw program store).2 ∧ Holds id row after := by
  induction program generalizing contents store with
  | nil => exact ⟨contents, rest, holds⟩
  | cons transaction others ih =>
    simp only [runProgram, List.forall₂_cons] at apart ⊢
    obtain ⟨after, rest, holds⟩ := transact_holds rest holds apart.1
    exact ih rest holds apart.2

/-! ### Rows of a committed transaction -/

theorem performAll_lost (lost : Atomic.Lost base handle store) :
    ∃ ended, Atomic.Lost ended (performAll draw requests handle store).2.1
      (performAll draw requests handle store).2.2 := by
  induction requests generalizing base handle store with
  | nil => exact ⟨base, lost⟩
  | cons request rest ih =>
    rcases done : perform (draw request) request.step handle store with ⟨answer, later, after⟩
    simp only [performAll, done]
    exact ih (perform_lost lost done).2

theorem performAll_cases (draw : Request → Fresh) (requests : List Request)
    (working : Atomic.Working base contents handle store) :
    (∃ later after, performAll draw requests handle store =
      (told (drawnSteps draw requests) contents, later, after) ∧
        Atomic.Working base (replay (drawnSteps draw requests) contents) later after) ∨
      ∃ ended, Atomic.Lost ended (performAll draw requests handle store).2.1
        (performAll draw requests handle store).2.2 := by
  induction requests generalizing contents handle store with
  | nil => exact .inl ⟨handle, store, rfl, working⟩
  | cons request rest ih =>
    rcases done : perform (draw request) request.step handle store with ⟨answer, later, after⟩
    obtain ⟨rfl, going | ⟨_, lost⟩⟩ := Atomic.perform_working working done
    · rcases ih going with ⟨final, last, others, working⟩ | lost
      · refine .inl ⟨final, last, ?_, working⟩
        simp only [performAll, done, others]
        rfl
      · simp only [performAll, done]
        exact .inr lost
    · simp only [performAll, done]
      exact .inr (performAll_lost lost)

/-- A transaction that could be committed had not ended before. -/
theorem transact_committed {answers : List DataStep.Answer} (rest : Rest contents store)
    (commits : transaction.ending = .commit)
    (ran : transact draw transaction store = (.ok { answers, ended := .ok () }, after)) :
    answers = told (drawnSteps draw transaction.requests) contents ∧
      Rest (replay (drawnSteps draw transaction.requests) contents) after := by
  rcases began : begin store with fault | ⟨handle, opened⟩
  · simp [transact, began] at ran
  · have working := Atomic.begin_working rest began
    rcases performAll_cases draw transaction.requests
      working with ⟨later, written, done, working⟩ | ⟨ended, lost⟩
    · obtain ⟨closed, concluded, rest⟩ := conclude_working working transaction.ending
      simp only [transact, began, done, concluded, Prod.mk.injEq, Except.ok.injEq,
        Transcript.mk.injEq, and_true] at ran
      obtain ⟨rfl, rfl⟩ := ran
      rw [if_pos commits] at rest
      exact ⟨rfl, rest⟩
    · obtain ⟨fault, refused⟩ := (conclude_lost lost transaction.ending).2 commits
      simp only [transact, began, Prod.mk.injEq, Except.ok.injEq, Transcript.mk.injEq] at ran
      have ended := refused.symm.trans ran.1.2
      cases ended

def recountAll (id : UInt64) (entries : List ((Fresh × DataStep) × DataStep.Answer))
    (row : Option Task) :
    Option Task :=
  entries.foldl (fun row entry => entry.1.2.recount id entry.1.1 entry.2 row) row

theorem replay_recounted {steps : List (Fresh × DataStep)} (ready : Ready contents)
    (plain : backend = .table → ∀ entry ∈ steps.zip (told steps contents),
      entry.1.2.Concerns id entry.2 → entry.1.2.Plain entry.1.1) :
    Holds id (recountAll id (steps.zip (told steps contents)) (held id contents))
      (replay steps contents) := by
  induction steps generalizing contents with
  | nil => exact ⟨ready, rfl⟩
  | cons step rest ih =>
    simp only [told, List.zip_cons_cons, List.forall_mem_cons] at plain
    have first := held_apply ready id (fun table => (plain table).1)
    have others := ih (ready.apply step.1 step.2) (fun table => (plain table).2)
    rw [first] at others
    exact others

theorem told_working (working : Atomic.Working base contents handle store) (fresh : Fresh)
    (step : DataStep) :
    (perform fresh step handle store).1 = (apply fresh step contents).1 := by
  rcases done : perform fresh step handle store with ⟨answer, later, after⟩
  exact (Atomic.perform_working working done).1

theorem found_held (working : Atomic.Working base contents handle store) (id : UInt64) :
    (find? id handle store).value = held id contents := by
  have told := told_working working ⟨[], 0⟩ (.find id)
  cases backend with
  | memory => exact DataStep.Answer.found.inj told
  | table => exact DataStep.Answer.found.inj told

theorem listed_held (working : Atomic.Working base contents handle store) {row : Task}
    (found : held id contents = some row) (done : row.isDone) {group : Text}
    (grouped : row.groupId = some group) (plain : backend = .table → 0 ∉ group) :
    row ∈ (doneInGroup group handle store).value := by
  have told := told_working working ⟨[], 0⟩ (.doneInGroup group)
  cases backend with
  | memory =>
    have listed : (doneInGroup group handle store).value =
        MemoryStore.Contents.doneInGroup contents group :=
      DataStep.Answer.listed.inj told
    rw [listed]
    exact List.mem_filter.mpr ⟨List.mem_of_find?_eq_some found, decide_eq_true ⟨grouped, done⟩⟩
  | table =>
    obtain ⟨rows, present, inside⟩ := Option.bind_eq_some_iff.mp found
    have listed : (doneInGroup group handle store).value =
        (TableStore.listing contents (fun table => table.doneInGroup group)).value :=
          DataStep.Answer.listed.inj told
    rw [listed, TableStore.listing, present]
    refine List.mem_filter.mpr ⟨List.mem_of_find?_eq_some inside, decide_eq_true ⟨?_, done⟩⟩
    rw [beforeNul_plain (plain rfl), grouped]

variable {answers : List DataStep.Answer} {transcripts : List (Except Fault Transcript)}
  {final : backend.Store}

/-- What a committed transaction was answered to have stored under an id is read back in full, as
long as no other one stores anything there, and a row with a result is listed in its group. The
table does so for texts without a NUL. -/
theorem recalled (id : UInt64) (commits : transaction.ending = .commit)
    (ran : transact draw transaction store = (.ok { answers, ended := .ok () }, after))
    (plain : backend = .table → ∀ entry ∈ (drawnSteps draw transaction.requests).zip answers,
      entry.1.2.Concerns id entry.2 → entry.1.2.Plain entry.1.1)
    (others : runProgram draw program after = (transcripts, final))
    (apart : List.Forall₂ (Apart id) program transcripts) :
    let row := recountAll id ((drawnSteps draw transaction.requests).zip answers)
      ((rows store).find? (fun row => row.id = id))
    ∃ handle opened, begin final = .ok (handle, opened) ∧ (find? id handle opened).value = row ∧
      ∀ task group, row = some task → task.isDone → task.groupId = some group →
        (backend = .table → 0 ∉ group) →
        task ∈ (doneInGroup group handle opened).value := by
  intro row
  have begun : ∃ handle opened, begin store = .ok (handle, opened) := by
    rcases began : begin store with fault | ⟨handle, opened⟩
    · simp [transact, began] at ran
    · exact ⟨handle, opened, rfl⟩
  obtain ⟨handle, opened, began⟩ := begun
  obtain ⟨contents, rest, ready⟩ := begin_ready began
  obtain ⟨rfl, stored⟩ := transact_committed rest commits ran
  have holds : Holds id row (replay (drawnSteps draw transaction.requests) contents) := by
    have recounted := replay_recounted ready plain
    rwa [held_rest rest] at recounted
  have untouched : List.Forall₂ (Apart id) program (runProgram draw program after).1 := by
    rwa [others]
  obtain ⟨left, rest, holds⟩ := runProgram_holds stored holds untouched
  rw [others] at rest
  obtain ⟨handle, opened, began⟩ := holds.ready.begins rest
  have working := Atomic.begin_working rest began
  refine ⟨handle, opened, began, (found_held working id).trans holds.held, ?_⟩
  intro task group same done grouped plain
  exact listed_held working (holds.held.trans same) done grouped plain

end Backend
end CodeAudit
