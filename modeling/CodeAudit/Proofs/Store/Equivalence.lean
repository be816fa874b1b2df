import CodeAudit.Proofs.Store.Correspondence

/-! Both backends tell a program the same. Within a transaction that is so for every step, and what
a transaction leaves behind is alike however it ends. -/
namespace CodeAudit

open TaskStore

/-- The table on a connection that may write, with no transaction open. -/
abbrev TaskTable.alone (table : TaskTable) : TableStore := { contents := some table }

abbrev Backend.draw (backend : Backend) (request : Request) : Fresh := request.drawn backend

def Program.requests (program : Program) : List Request := program.flatMap Transaction.requests

/-- Both transactions have begun and ended as asked, and their answers agree. -/
def Transcript.Agree (requests : List Request) (first second : Except Fault Transcript) : Prop :=
  ∃ mine theirs, first = .ok { answers := mine, ended := .ok () } ∧
    second = .ok { answers := theirs, ended := .ok () } ∧
      List.Forall₂ (DataStep.Answer.Agree requests) mine theirs

variable {done requests more : List Request} {memory : MemoryStore.Contents} {table : TaskTable}

theorem DataStep.Answer.Agree.mono {first second : DataStep.Answer}
    (agree : Agree requests first second) (wider : requests ⊆ more) : Agree more first second := by
  cases agree with
  | inserted same => exact .inserted (same.mono wider)
  | refused member inserts codes => exact .refused (wider member) inserts codes
  | found same =>
    refine .found ?_
    cases same with
    | some same => exact .some (same.mono wider)
    | none => exact .none
  | listed same => exact .listed (same.imp (fun _ _ same => same.mono wider))
  | wrote codes => exact .wrote codes

theorem Transcript.Agree.mono {first second : Except Fault Transcript}
    (agree : Agree requests first second) (wider : requests ⊆ more) : Agree more first second := by
  obtain ⟨mine, theirs, one, other, answers⟩ := agree
  exact ⟨mine, theirs, one, other, answers.imp (fun _ _ agree => agree.mono wider)⟩

/-! ### Steps -/

/-- Memory never runs out of ids. -/
theorem told_unexhausted (steps : List (Fresh × DataStep)) (contents : MemoryStore.Contents) :
    ∀ answer ∈ told (σ := MemoryStore) steps contents, ¬answer.Exhausted := by
  induction steps generalizing contents with
  | nil => exact fun answer member => absurd member List.not_mem_nil
  | cons step rest ih =>
    exact List.forall_mem_cons.mpr ⟨MemoryStore.not_exhausted step.1 step.2 contents, ih _⟩

/-- What requests are told on contents that are alike, without transactions. -/
structure Tells (done requests : List Request) (memory : MemoryStore.Contents)
    (table : TaskTable) : Prop where
  agree : List.Forall₂ (DataStep.Answer.Agree (done ++ requests))
    (told (σ := MemoryStore) (drawnSteps Backend.memory.draw requests) memory)
    (told (σ := TableStore) (drawnSteps Backend.table.draw requests) table.alone)
  lasts : ∀ answer ∈ told (σ := TableStore) (drawnSteps Backend.table.draw requests) table.alone,
    ¬answer.Exhausted
  leaves : ∃ after : TaskTable,
    replay (σ := TableStore) (drawnSteps Backend.table.draw requests) table.alone = after.alone ∧
    Alike (done ++ requests)
      (replay (σ := MemoryStore) (drawnSteps Backend.memory.draw requests) memory) after

theorem Alike.tells (alike : Alike done memory table) (fair : ∀ request ∈ requests, request.Fair)
    (distinct : ((done ++ requests).filterMap Request.uuid?).Nodup)
    (lasting : (∀ answer ∈ told (σ := TableStore) (drawnSteps Backend.table.draw requests)
      table.alone,
      ¬answer.Exhausted) ∨ (done ++ requests).length < 2 ^ 62) :
        Tells done requests memory table := by
  induction requests generalizing done memory table with
  | nil =>
    refine ⟨.nil, fun answer member => absurd member List.not_mem_nil, table, rfl, ?_⟩
    rw [List.append_nil]
    exact alike
  | cons request rest ih =>
    obtain ⟨own, others⟩ := List.forall_mem_cons.mp fair
    have lasts :
        ¬(TableStore.apply (request.drawn .table) request.step table.alone).1.Exhausted := by
      intro exhausted
      rcases lasting with lasting | short
      · exact lasting _ List.mem_cons_self exhausted
      · have := alike.exhausted exhausted
        rw [List.length_append, List.length_cons] at short
        omega
    have fresh (uuid : Text) (brought : request.uuid? = some uuid) :
        uuid ∉ done.filterMap Request.uuid? := by
      intro earlier
      rw [List.filterMap_append, List.filterMap_cons_some brought] at distinct
      exact (List.nodup_append.mp distinct).2.2 uuid earlier uuid List.mem_cons_self rfl
    obtain ⟨agree, changed, same, alike⟩ := alike.apply own fresh lasts
    have later : told (σ := TableStore) (drawnSteps Backend.table.draw (request :: rest))
      table.alone =
        (TableStore.apply (request.drawn .table) request.step table.alone).1 ::
          told (σ := TableStore) (drawnSteps Backend.table.draw rest) changed.alone :=
      congrArg (fun store => _ :: told (σ := TableStore) (drawnSteps Backend.table.draw rest) store)
        same
    rw [later, List.forall_mem_cons] at lasting
    rw [List.append_cons] at distinct lasting
    obtain ⟨agrees, remains, after, left, alike⟩ :=
      ih alike others distinct (lasting.imp_left And.right)
    constructor
    · rw [later, List.append_cons]
      exact .cons (agree.mono (List.subset_append_left _ _)) agrees
    · rw [later]
      exact List.forall_mem_cons.mpr ⟨lasts, remains⟩
    · rw [List.append_cons]
      exact ⟨after,
        (congrArg (replay (σ := TableStore) (drawnSteps Backend.table.draw rest)) same).trans
        left, alike⟩

/-! ### Transactions -/

/-- However a transaction ends, what it leaves is alike. -/
theorem Alike.after {transaction : Transaction} (alike : Alike done memory table)
    (tells : Tells done transaction.requests memory table) :
    ∃ after : TaskTable,
      contentsAfter (σ := TableStore) Backend.table.draw transaction table.alone = after.alone ∧
      Alike (done ++ transaction.requests)
        (contentsAfter (σ := MemoryStore) Backend.memory.draw transaction memory) after := by
  unfold contentsAfter
  split
  · exact tells.leaves
  · exact ⟨table, rfl, alike.mono transaction.requests⟩

theorem Alike.transact {transaction : Transaction} (alike : Alike done memory table)
    (fair : ∀ request ∈ transaction.requests, request.Fair)
    (distinct : ((done ++ transaction.requests).filterMap Request.uuid?).Nodup)
    (lasting : (∀ transcript, (transact Backend.table.draw transaction table.alone).1 =
      .ok transcript →
        ∀ answer ∈ transcript.answers, ¬answer.Exhausted) ∨
          (done ++ transaction.requests).length < 2 ^ 62) :
    ∃ mine theirs contents after,
      transact Backend.memory.draw transaction ({ committed := memory } : MemoryStore) =
        (mine, { committed := contents }) ∧
      transact Backend.table.draw transaction table.alone = (theirs, TaskTable.alone after) ∧
      Transcript.Agree (done ++ transaction.requests) mine theirs ∧
      Alike (done ++ transaction.requests) contents after := by
  have begins : ∃ handle opened, begin table.alone = .ok (handle, opened) :=
    ⟨_, _, TableStore.begin_open_store rfl rfl⟩
  have rests : Rest (σ := TableStore) table.alone table.alone := ⟨rfl, rfl⟩
  have rested : Rest (σ := MemoryStore) memory { committed := memory } := rfl
  have lasts :
      (∀ answer ∈ told (σ := TableStore) (drawnSteps Backend.table.draw transaction.requests)
        table.alone,
      ¬answer.Exhausted) ∨ (done ++ transaction.requests).length < 2 ^ 62 := by
    refine lasting.imp_left (fun lasts => ?_)
    obtain ⟨after, did, _⟩ := transact_rest _ _ rests begins (.inl lasts)
    exact lasts _ (congrArg Prod.fst did)
  have tells := alike.tells fair distinct lasts
  obtain ⟨after, changed, later⟩ := alike.after tells
  obtain ⟨_, did, rfl, _⟩ := transact_rest _ _ rests begins (.inr tells.lasts)
  obtain ⟨store, made, kept⟩ := transact_rest Backend.memory.draw transaction rested ⟨_, _, rfl⟩
    (.inr (told_unexhausted _ _))
  rw [changed] at did
  rw [← show store.committed = _ from kept] at later
  exact ⟨_, _, store.committed, after, made, did, ⟨_, _, rfl, rfl, tells.agree⟩, later⟩

/-! ### Programs -/

/-- No insertion has been refused for want of ids. -/
def Lasting (transcripts : List (Except Fault Transcript)) : Prop :=
  ∀ transcript, .ok transcript ∈ transcripts → ∀ answer ∈ transcript.answers, ¬answer.Exhausted

theorem Alike.runProgram {program : Program} (alike : Alike done memory table)
    (fair : ∀ request ∈ program.requests, request.Fair)
    (distinct : ((done ++ program.requests).filterMap Request.uuid?).Nodup)
    (lasting : Lasting (runProgram Backend.table.draw program table.alone).1 ∨
      (done ++ program.requests).length < 2 ^ 62) :
    List.Forall₂ (Transcript.Agree (done ++ program.requests))
      (runProgram Backend.memory.draw program ({ committed := memory } : MemoryStore)).1
      (runProgram Backend.table.draw program table.alone).1 := by
  induction program generalizing done memory table with
  | nil => exact .nil
  | cons transaction rest ih =>
    obtain ⟨own, others⟩ := List.forall_mem_append.mp fair
    have split : done ++ Program.requests (transaction :: rest) =
        done ++ transaction.requests ++ Program.requests rest := (List.append_assoc _ _ _).symm
    rw [split] at distinct lasting ⊢
    have before : ((done ++ transaction.requests).filterMap Request.uuid?).Nodup := by
      rw [List.filterMap_append] at distinct
      exact (List.nodup_append.mp distinct).1
    obtain ⟨mine, theirs, contents, after, made, did, agree, alike⟩ := alike.transact own before
      (lasting.imp (fun lasts transcript same => lasts transcript (same ▸ List.mem_cons_self))
        (fun short => by rw [List.length_append] at short; omega))
    have first : (TaskStore.runProgram Backend.memory.draw (transaction :: rest)
          ({ committed := memory } : MemoryStore)).1 =
        mine :: (TaskStore.runProgram Backend.memory.draw rest
          ({ committed := contents } : MemoryStore)).1 := by
      simp only [TaskStore.runProgram, made]
    have second : (TaskStore.runProgram Backend.table.draw (transaction :: rest) table.alone).1 =
        theirs :: (TaskStore.runProgram Backend.table.draw rest after.alone).1 := by
      simp only [TaskStore.runProgram, did]
    rw [second] at lasting ⊢
    rw [first]
    exact .cons (agree.mono (List.subset_append_left _ _)) (ih alike others distinct
      (lasting.imp_left (fun lasts transcript member =>
        lasts transcript (List.mem_cons_of_mem _ member))))

end CodeAudit
