import CodeAudit.Proofs.Database.Transactions
import CodeAudit.Proofs.Store.Equivalence
import CodeAudit.Proofs.Store.Recall

/-! The stores as they are run, in memory or over a database. Programs are told the same by both,
and what has been stored is read back. -/
namespace CodeAudit

open TaskStore

namespace DatabaseStore

/-- What is made of a database that holds nothing. -/
def prepared : DatabaseStore :=
  ({ connection := { contents := {} } } : DatabaseStore).createTable.state

theorem createTable_empty :
    ({ connection := { contents := {} } } : DatabaseStore).createTable =
      { value := .ok (), state := { connection := { contents := Database.prepared } } } := by
  have permitted : ({ connection := { contents := {} } } : DatabaseStore).refusal? = none := rfl
  unfold createTable
  rw [permitted]
  change tried _ ((({} : Database).prepare (.ok ())).map _) = _
  rw [Database.prepare_empty]
  rfl

theorem prepared_mirrors : prepared.Mirrors (Backend.empty .table) := by
  have made : prepared = { connection := { contents := Database.prepared } } :=
    congrArg Reply.state createTable_empty
  have reads : Database.prepared.Reads (some {}) := by
    rw [Database.prepared_eq]
    exact @Database.Reads.rows [] none (by simp) .nil
  rw [made]
  exact ⟨rfl, reads, .none, rfl, rfl⟩

/-- A program that is run over a new database is told what it is told over an empty table. -/
theorem runProgram_prepared (draw : Request → Fresh) (program : Program) :
    (runProgram draw program prepared).1 =
      (runProgram draw program (Backend.empty .table : TableStore)).1 :=
  (simulates.runProgram draw prepared_mirrors program).answer

/-- However handles are used, a new database answers as an empty table does. -/
theorem run_prepared (turns : List Turn) :
    (Service.run { store := prepared } turns).1 =
      (Service.run { store := (Backend.empty .table : TableStore) } turns).1 :=
  (simulates.run (.intro [] prepared_mirrors) turns).answer

variable {store : DatabaseStore} {table : TableStore}

def rows (store : DatabaseStore) : List Task :=
  ((store.contents.tasks.map Relation.rows).getD []).map Row.task

theorem rows_mirrors (mirrors : store.Mirrors table) : store.rows = TaskStore.rows table := by
  obtain ⟨rows, largest, holds, reads, _⟩ := mirrors.contents
  change _ = (table.contents.map TaskTable.rows).getD []
  unfold DatabaseStore.rows
  rw [holds, reads, Database.tasks_ofRows]
  rfl

/-- Through a handle both find the same. -/
theorem find?_alike (mirrors : store.Mirrors table) (id : UInt64) (handle : Connection.Handle) :
    (find? id handle store).value = (find? id handle table).value :=
  DataStep.Answer.found.inj (simulates.perform ⟨[], 0⟩ (.find id) handle mirrors).answer

theorem doneInGroup_alike (mirrors : store.Mirrors table) (group : Text)
    (handle : Connection.Handle) :
    (doneInGroup group handle store).value = (doneInGroup group handle table).value :=
  DataStep.Answer.listed.inj
    (simulates.perform ⟨[], 0⟩ (.doneInGroup group) handle mirrors).answer

/-- The texts of a task that is found go on after no NUL. -/
theorem found_kept (mirrors : store.Mirrors table) {id : UInt64} {handle : Connection.Handle}
    {task : Task} (found : (find? id handle store).value = some task) : task.asRow = task := by
  obtain ⟨rows, largest, _, reads, keeps, _⟩ := mirrors.contents
  rw [find?_alike mirrors] at found
  have held : table.contents.bind (fun table => table.find? id) = some task := found
  rw [reads, Option.bind_some, TaskTable.find?_ofRows] at held
  obtain ⟨row, inside, rfl⟩ := Option.map_eq_some_iff.mp held
  exact (keeps row (List.mem_of_find?_eq_some inside)).asRow

theorem group_plain {task : Task} (kept : task.asRow = task) {group : Text}
    (grouped : task.groupId = some group) : 0 ∉ group := by
  have same := congrArg Task.groupId kept
  rw [Task.asRow_eq, grouped] at same
  have whole : (task.groupId.map Text.beforeNul) = some group := same
  rw [grouped, Option.map_some, Option.some.injEq] at whole
  intro member
  rw [← whole] at member
  exact absurd (List.mem_takeWhile_imp member) (by decide)

variable {after final : DatabaseStore} {draw : Request → Fresh} {transaction : Transaction}
  {program : Program} {answers : List DataStep.Answer}
  {transcripts : List (Except Fault Transcript)}

/-- A database keeps texts without a NUL as they were stored. -/
theorem recalled (mirrors : store.Mirrors table) (id : UInt64)
    (commits : transaction.ending = .commit)
    (ran : transact draw transaction store = (.ok { answers, ended := .ok () }, after))
    (plain : ∀ entry ∈ (drawnSteps draw transaction.requests).zip answers,
      entry.1.2.Concerns id entry.2 → entry.1.2.Plain entry.1.1)
    (others : runProgram draw program after = (transcripts, final))
    (apart : List.Forall₂ (Backend.Apart id) program transcripts) :
    let row := Backend.recountAll id ((drawnSteps draw transaction.requests).zip answers)
      (store.rows.find? (fun row => row.id = id))
    ∃ handle opened, begin final = .ok (handle, opened) ∧ (find? id handle opened).value = row ∧
      ∀ task group, row = some task → task.isDone → task.groupId = some group →
        task ∈ (doneInGroup group handle opened).value := by
  intro row
  have first := simulates.transact draw mirrors transaction
  rcases did : transact draw transaction table with ⟨told, left⟩
  rw [ran, did] at first
  obtain ⟨_, mirrored⟩ := first
  have rest := simulates.runProgram draw mirrored program
  rcases ended : runProgram draw program left with ⟨toldOthers, last⟩
  rw [others, ended] at rest
  obtain ⟨_, mirrored⟩ := rest
  have table_recalled := @Backend.recalled .table
  obtain ⟨handle, opened, began, found, listed⟩ :=
    table_recalled id commits did (fun _ => plain) ended apart
  have begun : Outcomes Mirrors (begin final) (Connection.begin last) := simulates.begin mirrored
  rw [show Connection.begin last = .ok (handle, opened) from began] at begun
  obtain ⟨own, begins, alike⟩ := begun.of_done
  have same : _ = row := congrArg (fun rows : List Task =>
    Backend.recountAll id ((drawnSteps draw transaction.requests).zip answers)
      (rows.find? (fun row => row.id = id))) (rows_mirrors mirrors).symm
  have stays : (find? id handle own).value = row :=
    (find?_alike alike id handle).trans (found.trans same)
  refine ⟨handle, own, begins, stays, ?_⟩
  intro task group stored done grouped
  have plain := group_plain (found_kept alike (stays.trans stored)) grouped
  have member := listed task group (same.trans stored) done grouped (fun _ => plain)
  exact (doneInGroup_alike alike group handle).symm ▸ member

end DatabaseStore

/-- The stores that tasks are kept in: in memory, or in a database. -/
inductive Engine where
  | memory
  | database
deriving DecidableEq

namespace Engine

def Store : Engine → Type
  | memory => MemoryStore
  | database => DatabaseStore

def Handle : Engine → Type
  | memory => MemoryStore.Handle
  | database => Connection.Handle

instance (engine : Engine) : TaskStore engine.Store engine.Handle :=
  match engine with
  | memory => inferInstanceAs (TaskStore MemoryStore MemoryStore.Handle)
  | database => inferInstanceAs (TaskStore DatabaseStore Connection.Handle)

/-- The database is one that tasks have been stored in through handles. -/
def Sound : (engine : Engine) → engine.Store → Prop
  | memory, _ => True
  | database, store => ∃ table : TableStore, DatabaseStore.Mirrors store table

def rows : {engine : Engine} → engine.Store → List Task
  | memory, store => TaskStore.rows (σ := MemoryStore) store
  | database, store => DatabaseStore.rows store

def empty : (engine : Engine) → engine.Store
  | memory => ({} : MemoryStore)
  | database => DatabaseStore.prepared

def draw : Engine → Request → Fresh
  | memory => Backend.memory.draw
  | database => Backend.table.draw

def run (engine : Engine) (program : Program) : List (Except Fault Transcript) :=
  (runProgram engine.draw program engine.empty).1

/-- Run on either store a program is told the same, up to the uuids and the times that each draws,
as long as the database has another id to give; and it has, for every program that could be run. -/
theorem programs_agree (program : Program) (fair : ∀ request ∈ program.requests, request.Fair)
    (distinct : (program.requests.filterMap Request.uuid?).Nodup)
    (lasting : Lasting (run .database program) ∨ program.requests.length < 2 ^ 62) :
    List.Forall₂ (Transcript.Agree program.requests) (run .memory program)
      (run .database program) := by
  have mirrored : run .database program =
      (runProgram Backend.table.draw program (Backend.empty .table : TableStore)).1 :=
    DatabaseStore.runProgram_prepared Backend.table.draw program
  have empty : Alike [] {} {} := by
    constructor
    · exact .nil
    all_goals decide
  rw [mirrored] at lasting ⊢
  exact empty.runProgram fair distinct lasting

/-- A task under an id of its own, one that is given back, one that is refused, and one that is
numbered after them. -/
theorem programs_agree_numbered :
    let asks (step : DataStep) (mine theirs : String) : Request :=
      { step, drawn := fun | .memory => ⟨utf8 mine, 1⟩ | .table => ⟨utf8 theirs, 2⟩ }
    let blank : Task := { id := 0, createdAt := 0 }
    let program : Program :=
      [{ requests := [asks (.insert (Backend.draft 5 "a")) "" ""], ending := .commit },
        { requests := [asks (.insert blank) "b" "c", asks (.write .result 6 (utf8 "done")) "" ""]
          ending := .rollback },
        { requests := [asks (.insert { blank with id := 5 }) "d" "e", asks (.insert blank) "f" "g",
            asks (.ofProject []) "" ""]
          ending := .drop }]
    List.Forall₂ (Transcript.Agree program.requests) (run .memory program)
      (run .database program) := by
  intro asks blank program
  have fair (request : Request) (member : request ∈ program.requests) : request.Fair := by
    simp only [Program.requests, program, List.flatMap_cons, List.flatMap_nil, List.append_nil,
      List.mem_append, List.mem_cons, List.not_mem_nil, or_false] at member
    rcases member with rfl | (rfl | rfl) | rfl | rfl | rfl
    all_goals
      refine ⟨by decide, by decide, ?_⟩
      rintro given ⟨⟩
    all_goals decide
  exact programs_agree program fair (by decide) (.inr (by decide))

variable {engine : Engine} {store after final : engine.Store} {draw : Request → Fresh}
  {transaction : Transaction} {program : Program} {answers : List DataStep.Answer}
  {transcripts : List (Except Fault Transcript)}

/-- What a committed transaction was answered to have stored under an id is read back in full, as
long as no other one stores anything there, and a row with a result is listed in its group. A
database does so for texts without a NUL. -/
theorem texts_recalled (sound : engine.Sound store) (id : UInt64)
    (commits : transaction.ending = .commit)
    (ran : transact draw transaction store = (.ok { answers, ended := .ok () }, after))
    (plain : engine = .database → ∀ entry ∈ (drawnSteps draw transaction.requests).zip answers,
      entry.1.2.Concerns id entry.2 → entry.1.2.Plain entry.1.1)
    (others : runProgram draw program after = (transcripts, final))
    (apart : List.Forall₂ (Backend.Apart id) program transcripts) :
    let row := Backend.recountAll id ((drawnSteps draw transaction.requests).zip answers)
      ((rows store).find? (fun row => row.id = id))
    ∃ handle opened, begin final = .ok (handle, opened) ∧ (find? id handle opened).value = row ∧
      ∀ task group, row = some task → task.isDone → task.groupId = some group →
        task ∈ (doneInGroup group handle opened).value := by
  intro row
  cases engine with
  | memory =>
    have memory_recalled := @Backend.recalled .memory
    obtain ⟨handle, opened, began, found, listed⟩ :=
      memory_recalled id commits ran nofun others apart
    refine ⟨handle, opened, began, found, ?_⟩
    intro task group same done grouped
    exact listed task group same done grouped nofun
  | database =>
    obtain ⟨table, mirrors⟩ := sound
    exact DatabaseStore.recalled mirrors id commits ran (plain rfl) others apart

/-- A row is read back after another one has been stored. -/
theorem texts_recalled_after_another :
    let given : Task :=
      { Backend.draft 1 "a" with result := utf8 "issue", groupId := some (utf8 "g") }
    let stores (task : Task) : Transaction :=
      { requests := [⟨.insert task, fun _ => ⟨[], 1⟩⟩], ending := .commit }
    let told (task : Task) : Transcript :=
      { answers := [.inserted ⟨.ok (), task⟩], ended := .ok () }
    ∃ final, runProgram (Engine.draw .database) [stores given, stores (Backend.draft 2 "b")]
      (empty .database) =
        ([.ok (told given), .ok (told (Backend.draft 2 "b"))], final) ∧
      ∃ handle opened, begin final = .ok (handle, opened) ∧
        (find? 1 handle opened).value = some given ∧
        given ∈ (doneInGroup (utf8 "g") handle opened).value := by
  intro given stores told
  have sound : Sound .database (empty .database) := ⟨_, DatabaseStore.prepared_mirrors⟩
  have answered : (runProgram (Engine.draw .database)
      [stores given, stores (Backend.draft 2 "b")] (empty .database)).1 =
        [.ok (told given), .ok (told (Backend.draft 2 "b"))] :=
    DatabaseStore.runProgram_prepared (Engine.draw .database) _
  generalize empty .database = store at sound answered ⊢
  let after := (transact (Engine.draw .database) (stores given) store).2
  have ran : transact (Engine.draw .database) (stores given) store = (.ok (told given), after) :=
    Prod.ext (List.cons.inj answered).1 rfl
  have others : runProgram (Engine.draw .database) [stores (Backend.draft 2 "b")] after =
      ([.ok (told (Backend.draft 2 "b"))], _) := Prod.ext (List.cons.inj answered).2 rfl
  have apart : Backend.Apart 1 (stores (Backend.draft 2 "b"))
      (.ok (told (Backend.draft 2 "b"))) := by
    simp [Backend.Apart, stores, told, DataStep.Concerns, Backend.draft]
  have plain : DataStep.Plain ⟨[], 1⟩ (.insert given) := by
    simp only [DataStep.Plain, DataStep.texts]
    decide
  obtain ⟨handle, opened, began, found, listed⟩ := texts_recalled sound 1 rfl ran
    (fun _ entry member _ => List.mem_singleton.mp member ▸ plain) others (.cons apart .nil)
  refine ⟨_, Prod.ext answered rfl, handle, opened, began, found, ?_⟩
  exact listed given (utf8 "g") rfl rfl rfl

/-- A result that starts with a NUL is accepted and comes back empty, and the task counts as one
without a result. -/
theorem nul_empties_result :
    let given : Task :=
      { Backend.draft 1 "a" with result := [0, 65, 66, 67], groupId := some (utf8 "g") }
    let asks (step : DataStep) : Request := { step, drawn := fun _ => ⟨[], 1⟩ }
    run .database
        [{ requests := [asks (.insert given)], ending := .commit },
          { requests := [asks (.find 1), asks (.doneInGroup (utf8 "g"))], ending := .drop }] =
      [.ok { answers := [.inserted ⟨.ok (), given⟩], ended := .ok () },
        .ok { answers := [.found (some { given with result := [] }), .listed []],
              ended := .ok () }] :=
  DatabaseStore.runProgram_prepared (Engine.draw .database) _

end Engine
end CodeAudit
