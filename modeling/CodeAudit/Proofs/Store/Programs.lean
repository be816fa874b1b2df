import CodeAudit.Proofs.Store.Atomicity
import Mathlib.Data.List.Forall2

/-! Programs of transactions, which can be run over any store. What a run is told is told as well by
the data steps alone, without any transactions around them. -/
namespace CodeAudit

/-- A data step, and what each backend draws for it. -/
structure Request where
  step : DataStep
  drawn : Backend → Fresh

inductive Ending where
  | commit
  | rollback
  /-- The handle is given back unfinished. -/
  | drop
deriving DecidableEq, Repr

structure Transaction where
  requests : List Request
  ending : Ending

abbrev Program := List Transaction

/-- What a transaction is told. -/
structure Transcript where
  answers : List DataStep.Answer
  ended : Except Fault Unit

namespace TaskStore
variable {σ τ : Type} [TaskStore σ τ]

/-- The requests of a transaction, answered one after the other. -/
def performAll (draw : Request → Fresh) (requests : List Request) (handle : τ) (store : σ) :
    List DataStep.Answer × τ × σ :=
  match requests with
  | [] => ([], handle, store)
  | request :: rest =>
      let (answer, handle, store) := perform (draw request) request.step handle store
      let (answers, handle, store) := performAll draw rest handle store
      (answer :: answers, handle, store)

def conclude (ending : Ending) (handle : τ) (store : σ) : Except Fault Unit × σ :=
  match ending with
  | .commit =>
      let reply := commit handle store
      (reply.value, (release reply.state.1 reply.state.2).1)
  | .rollback =>
      match rollback handle store with
      | .ok (handle, store) => (.ok (), (release handle store).1)
      | .error fault => (.error fault, (release handle store).1)
  | .drop => (.ok (), (release handle store).1)

def transact (draw : Request → Fresh) (transaction : Transaction) (store : σ) :
    Except Fault Transcript × σ :=
  match begin store with
  | .error fault => (.error fault, store)
  | .ok (handle, store) =>
      let (answers, handle, store) := performAll draw transaction.requests handle store
      let (ended, store) := conclude transaction.ending handle store
      (.ok { answers, ended }, store)

def runProgram (draw : Request → Fresh) (program : Program) (store : σ) :
    List (Except Fault Transcript) × σ :=
  match program with
  | [] => ([], store)
  | transaction :: rest =>
      let (transcript, store) := transact draw transaction store
      let (transcripts, store) := runProgram draw rest store
      (transcript :: transcripts, store)

/-! What is told without transactions. -/

variable [Atomic σ] {base contents : Contents σ} {handle : τ} {store : σ} {draw : Request → Fresh}
  {requests : List Request}

def told (steps : List (Fresh × DataStep)) (contents : Contents σ) : List DataStep.Answer :=
  match steps with
  | [] => []
  | (fresh, step) :: rest => (apply fresh step contents).1 ::
      told rest (apply fresh step contents).2

def drawnSteps (draw : Request → Fresh) (requests : List Request) : List (Fresh × DataStep) :=
  requests.map fun request => (draw request, request.step)

/-- In a transaction the same is told, as long as ids last. -/
theorem performAll_working (working : Atomic.Working base contents handle store)
    (lasting : (∀ answer ∈ (performAll draw requests handle store).1, ¬answer.Exhausted) ∨
      ∀ answer ∈ told (drawnSteps draw requests) contents, ¬answer.Exhausted) :
    ∃ later after, performAll draw requests handle store =
      (told (drawnSteps draw requests) contents, later, after) ∧
      Atomic.Working base (replay (drawnSteps draw requests) contents) later after := by
  induction requests generalizing contents handle store with
  | nil => exact ⟨handle, store, rfl, working⟩
  | cons request rest ih =>
    rcases done : perform (draw request) request.step handle store with ⟨answer, later, after⟩
    obtain ⟨same, changed⟩ := Atomic.perform_working working done
    subst same
    simp only [performAll, done, drawnSteps, List.map_cons, told, List.forall_mem_cons] at lasting ⊢
    -- A transaction ends by itself only where ids run out, and the answer says so.
    have going : Atomic.Working base (apply (draw request) request.step contents).2 later
        after := by
      refine changed.resolve_right (fun lost => ?_)
      rcases lasting with ⟨lasts, _⟩ | ⟨lasts, _⟩ <;> exact lasts lost.1
    obtain ⟨final, last, others, working⟩ := ih going (lasting.imp And.right And.right)
    refine ⟨final, last, ?_, working⟩
    rw [others]
    rfl

/-- A transaction ends as it should, and leaves the contents as they are to be. -/
theorem conclude_working (working : Atomic.Working base contents handle store) (ending : Ending) :
    ∃ after, conclude ending handle store = (.ok (), after) ∧
      Rest (if ending = .commit then contents else base) after := by
  cases ending with
  | commit =>
    obtain ⟨later, after, done, finished, rest⟩ := Atomic.commit_working working
    refine ⟨after, ?_, rest⟩
    simp only [conclude, done, Atomic.release_finished after finished]
  | rollback =>
    obtain ⟨later, after, done, finished, rest⟩ := Atomic.rollback_working working
    refine ⟨after, ?_, rest⟩
    simp only [conclude, done, Atomic.release_finished after finished]
  | drop => exact ⟨_, rfl, Atomic.release_working working⟩

def contentsAfter (draw : Request → Fresh) (transaction : Transaction) (contents : Contents σ) :
    Contents σ :=
  if transaction.ending = .commit then replay (drawnSteps draw transaction.requests) contents
  else contents

theorem transact_rest (draw : Request → Fresh) (transaction : Transaction)
    (rest : Rest contents store) (begins : ∃ handle opened, begin store = .ok (handle, opened))
    (lasting : (∀ transcript, (transact draw transaction store).1 = .ok transcript →
        ∀ answer ∈ transcript.answers, ¬answer.Exhausted) ∨
      ∀ answer ∈ told (drawnSteps draw transaction.requests) contents, ¬answer.Exhausted) :
    ∃ after, transact draw transaction store =
        (.ok { answers := told (drawnSteps draw transaction.requests) contents, ended := .ok () },
          after) ∧
      Rest (contentsAfter draw transaction contents) after := by
  obtain ⟨handle, opened, began⟩ := begins
  have working := Atomic.begin_working rest began
  unfold transact at lasting ⊢
  rw [began] at lasting ⊢
  obtain ⟨later, written, done, working⟩ :=
    performAll_working working (lasting.imp_left (fun lasts => lasts _ rfl))
  obtain ⟨after, ended, rest⟩ := conclude_working working transaction.ending
  refine ⟨after, ?_, rest⟩
  simp only [done, ended]

end TaskStore
end CodeAudit
