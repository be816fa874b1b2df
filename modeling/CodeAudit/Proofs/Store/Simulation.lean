import CodeAudit.Proofs.Store.Programs
import CodeAudit.Proofs.Store.Service

/-! Two stores with handles of one kind, of which one does whatever the other does. Whatever is
asked of them, one step after the other, both give the same answers. -/
namespace CodeAudit
namespace TaskStore
variable {σ ρ τ α β : Type} {like : σ → ρ → Prop}

/-- The same is answered, and what is left is alike. -/
inductive Answers (like : σ → ρ → Prop) : α × σ → α × ρ → Prop
  | intro (answer : α) {mine : σ} {theirs : ρ} (alike : like mine theirs) :
      Answers like (answer, mine) (answer, theirs)

/-- The same is answered under the same handle, and what is left is alike. -/
inductive Continues (like : σ → ρ → Prop) : α × β × σ → α × β × ρ → Prop
  | intro (answer : α) (handle : β) {mine : σ} {theirs : ρ} (alike : like mine theirs) :
      Continues like (answer, handle, mine) (answer, handle, theirs)

/-- Both are done, or both are refused for one cause. -/
inductive Outcomes (like : σ → ρ → Prop) : Except Fault (τ × σ) → Except Fault (τ × ρ) → Prop
  | done (handle : τ) {mine : σ} {theirs : ρ} (alike : like mine theirs) :
      Outcomes like (.ok (handle, mine)) (.ok (handle, theirs))
  | refused (fault : Fault) : Outcomes like (.error fault) (.error fault)

theorem Answers.answer {mine : α × σ} {theirs : α × ρ} (same : Answers like mine theirs) :
    mine.1 = theirs.1 := by
  cases same with
  | intro => rfl

theorem Answers.left {mine : α × σ} {theirs : α × ρ} (same : Answers like mine theirs) :
    like mine.2 theirs.2 := by
  cases same with
  | intro _ alike => exact alike

theorem Answers.of_parts {mine : α × σ} {theirs : α × ρ} (told : mine.1 = theirs.1)
    (alike : like mine.2 theirs.2) : Answers like mine theirs := by
  obtain ⟨answer, left⟩ := mine
  obtain ⟨also, there⟩ := theirs
  dsimp only at told
  subst told
  exact .intro answer alike

theorem Continues.answer {mine : α × β × σ} {theirs : α × β × ρ}
    (same : Continues like mine theirs) :
    mine.1 = theirs.1 := by
  cases same with
  | intro => rfl

theorem Continues.handle {mine : α × β × σ} {theirs : α × β × ρ}
    (same : Continues like mine theirs) :
    mine.2.1 = theirs.2.1 := by
  cases same with
  | intro => rfl

theorem Continues.left {mine : α × β × σ} {theirs : α × β × ρ} (same : Continues like mine theirs) :
    like mine.2.2 theirs.2.2 := by
  cases same with
  | intro _ _ alike => exact alike

theorem Continues.of_parts {mine : α × β × σ} {theirs : α × β × ρ} (told : mine.1 = theirs.1)
    (same : mine.2.1 = theirs.2.1) (alike : like mine.2.2 theirs.2.2) :
    Continues like mine theirs := by
  obtain ⟨answer, handle, left⟩ := mine
  obtain ⟨also, other, there⟩ := theirs
  dsimp only at told same
  subst told same
  exact .intro answer handle alike

theorem Outcomes.refl (outcome : Except Fault (τ × σ)) : Outcomes Eq outcome outcome := by
  cases outcome with
  | error fault => exact .refused fault
  | ok opened => exact .done opened.1 rfl

/-- What holds of the stores inside holds of the stores made of them. -/
theorem Outcomes.within {σ' : Type} {also : σ' → ρ → Prop} {make : σ → σ'}
    {own : Except Fault (τ × σ)} {other : Except Fault (τ × ρ)} (same : Outcomes like own other)
    (kept : ∀ {mine : σ} {theirs : ρ}, like mine theirs → also (make mine) theirs) :
    Outcomes also (own.map (fun opened => (opened.1, make opened.2))) other := by
  cases same with
  | done handle alike => exact .done handle (kept alike)
  | refused fault => exact .refused fault

theorem Outcomes.of_done {own : Except Fault (τ × σ)} {handle : τ} {theirs : ρ}
    (outcomes : Outcomes like own (.ok (handle, theirs))) :
    ∃ mine, own = .ok (handle, mine) ∧ like mine theirs := by
  cases outcomes with
  | done handle alike => exact ⟨_, rfl, alike⟩

/-- Whatever is asked of stores that are alike is answered in the same way, and they stay alike. -/
structure Simulates [TaskStore σ τ] [TaskStore ρ τ] (like : σ → ρ → Prop) : Prop where
  begin {mine : σ} {theirs : ρ} : like mine theirs →
    Outcomes like (TaskStore.begin mine) (TaskStore.begin theirs)
  commit {mine : σ} {theirs : ρ} (handle : τ) : like mine theirs →
    let own := TaskStore.commit handle mine
    let other := TaskStore.commit handle theirs
    Continues like (own.value, own.state) (other.value, other.state)
  rollback {mine : σ} {theirs : ρ} (handle : τ) : like mine theirs →
    Outcomes like (TaskStore.rollback handle mine) (TaskStore.rollback handle theirs)
  release {mine : σ} {theirs : ρ} (handle : τ) : like mine theirs →
    like (TaskStore.release handle mine).1 (TaskStore.release handle theirs).1
  isCommitted {mine : σ} {theirs : ρ} (handle : τ) : like mine theirs →
    TaskStore.isCommitted handle mine = TaskStore.isCommitted handle theirs
  perform {mine : σ} {theirs : ρ} (fresh : Fresh) (step : DataStep) (handle : τ) :
    like mine theirs → Continues like (TaskStore.perform fresh step handle mine)
      (TaskStore.perform fresh step handle theirs)

namespace Simulates
variable [TaskStore σ τ] [TaskStore ρ τ] {mine : σ} {theirs : ρ}

theorem performAll (simulates : Simulates like) (draw : Request → Fresh) (alike : like mine theirs)
    (requests : List Request) (handle : τ) :
    Continues like (TaskStore.performAll draw requests handle mine)
      (TaskStore.performAll draw requests handle theirs) := by
  induction requests generalizing handle mine theirs with
  | nil => exact .intro [] handle alike
  | cons request rest ih =>
    have first := simulates.perform (draw request) request.step handle alike
    unfold TaskStore.performAll
    generalize TaskStore.perform (draw request) request.step handle mine = own at first
    generalize TaskStore.perform (draw request) request.step handle theirs = other at first
    obtain @⟨answer, later, opened, also, alike⟩ := first
    have others := ih alike later
    dsimp only
    generalize TaskStore.performAll draw rest later opened = own at others
    generalize TaskStore.performAll draw rest later also = other at others
    obtain @⟨answers, last, left, there, alike⟩ := others
    exact .intro (answer :: answers) last alike

theorem conclude (simulates : Simulates like) (alike : like mine theirs) (ending : Ending)
    (handle : τ) :
    Answers like (TaskStore.conclude ending handle mine)
      (TaskStore.conclude ending handle theirs) := by
  unfold TaskStore.conclude
  cases ending with
  | commit =>
    have committed := simulates.commit handle alike
    dsimp only at committed ⊢
    generalize TaskStore.commit handle mine = own at committed
    generalize TaskStore.commit handle theirs = other at committed
    obtain ⟨value, ⟨later, left⟩, _⟩ := own
    obtain ⟨also, ⟨last, there⟩, _⟩ := other
    cases committed with
    | intro value later alike => exact .intro value (simulates.release later alike)
  | rollback =>
    have undone := simulates.rollback handle alike
    generalize TaskStore.rollback handle mine = own at undone
    generalize TaskStore.rollback handle theirs = other at undone
    cases undone with
    | refused fault => exact .intro _ (simulates.release handle alike)
    | done later alike => exact .intro _ (simulates.release later alike)
  | drop => exact .intro _ (simulates.release handle alike)

theorem transact (simulates : Simulates like) (draw : Request → Fresh) (alike : like mine theirs)
    (transaction : Transaction) :
    Answers like (TaskStore.transact draw transaction mine)
      (TaskStore.transact draw transaction theirs) := by
  have begun := simulates.begin alike
  unfold TaskStore.transact
  generalize TaskStore.begin mine = own at begun
  generalize TaskStore.begin theirs = other at begun
  cases begun with
  | refused fault => exact .intro _ alike
  | @done handle opened also alike =>
    have told := simulates.performAll draw alike transaction.requests handle
    dsimp only
    generalize TaskStore.performAll draw transaction.requests handle opened = own at told
    generalize TaskStore.performAll draw transaction.requests handle also = other at told
    obtain @⟨answers, later, left, there, alike⟩ := told
    have ended := simulates.conclude alike transaction.ending later
    dsimp only
    generalize TaskStore.conclude transaction.ending later left = own at ended
    generalize TaskStore.conclude transaction.ending later there = other at ended
    obtain ⟨outcome, alike⟩ := ended
    exact .intro _ alike

theorem runProgram (simulates : Simulates like) (draw : Request → Fresh) (alike : like mine theirs)
    (program : Program) :
    Answers like (TaskStore.runProgram draw program mine)
      (TaskStore.runProgram draw program theirs) := by
  induction program generalizing mine theirs with
  | nil => exact .intro [] alike
  | cons transaction rest ih =>
    have first := simulates.transact draw alike transaction
    unfold TaskStore.runProgram
    generalize TaskStore.transact draw transaction mine = own at first
    generalize TaskStore.transact draw transaction theirs = other at first
    obtain @⟨transcript, left, there, alike⟩ := first
    have others := ih alike
    dsimp only
    generalize TaskStore.runProgram draw rest left = own at others
    generalize TaskStore.runProgram draw rest there = other at others
    obtain ⟨transcripts, alike⟩ := others
    exact .intro (transcript :: transcripts) alike

/-! ### Stores in use -/

/-- The stores are alike, and the same handles have been given out. -/
inductive Services (like : σ → ρ → Prop) : Service σ τ → Service ρ τ → Prop
  | intro {mine : σ} {theirs : ρ} (leases : List (Option (Lease τ))) (alike : like mine theirs) :
      Services like { store := mine, leases } { store := theirs, leases }

theorem act (simulates : Simulates like) (alike : like mine theirs) (action : Action)
    (lease : Lease τ) :
    Continues like (action.act lease mine) (action.act lease theirs) := by
  unfold Action.act
  cases action with
  | step fresh step =>
    have told := simulates.perform fresh step lease.handle alike
    dsimp only
    generalize TaskStore.perform fresh step lease.handle mine = own at told
    generalize TaskStore.perform fresh step lease.handle theirs = other at told
    cases told with
    | intro answer later alike => exact .intro _ _ alike
  | commit =>
    have committed := simulates.commit lease.handle alike
    dsimp only at committed ⊢
    generalize TaskStore.commit lease.handle mine = own at committed
    generalize TaskStore.commit lease.handle theirs = other at committed
    obtain ⟨value, ⟨later, left⟩, _⟩ := own
    obtain ⟨also, ⟨last, there⟩, _⟩ := other
    cases committed with
    | intro value later alike => exact .intro _ _ alike
  | rollback =>
    have undone := simulates.rollback lease.handle alike
    generalize TaskStore.rollback lease.handle mine = own at undone
    generalize TaskStore.rollback lease.handle theirs = other at undone
    cases undone with
    | refused fault => exact .intro _ _ alike
    | done later alike => exact .intro _ _ alike
  | release => exact .intro _ _ (simulates.release lease.handle alike)

theorem turn (simulates : Simulates like) {mine : Service σ τ} {theirs : Service ρ τ}
    (alike : Services like mine theirs) (turn : Turn) :
    Answers (Services like) (mine.turn turn) (theirs.turn turn) := by
  obtain @⟨mine, theirs, leases, alike⟩ := alike
  cases turn with
  | begin =>
    have begun := simulates.begin alike
    rw [Service.turn_begin, Service.turn_begin]
    dsimp only
    generalize TaskStore.begin mine = own at begun
    generalize TaskStore.begin theirs = other at begun
    cases begun with
    | refused fault => exact .intro _ (.intro leases alike)
    | done handle alike => exact .intro _ (.intro _ alike)
  | ask i action =>
    let own : Service σ τ := { store := mine, leases }
    let other : Service ρ τ := { store := theirs, leases }
    have held : own.lease? i = other.lease? i := rfl
    rcases found : other.lease? i with _ | lease
    · rw [Service.turn_nobody found, Service.turn_nobody (held.trans found)]
      exact .intro _ (.intro leases alike)
    · have acted := simulates.act alike action lease
      rw [Service.turn_ask found, Service.turn_ask (held.trans found)]
      dsimp only [own, other]
      generalize action.act lease mine = own at acted
      generalize action.act lease theirs = other at acted
      cases acted with
      | intro told later alike => exact .intro told (.intro _ alike)

/-- However handles are used, both services answer the same. -/
theorem run (simulates : Simulates like) {mine : Service σ τ} {theirs : Service ρ τ}
    (alike : Services like mine theirs) (turns : List Turn) :
    Answers (Services like) (mine.run turns) (theirs.run turns) := by
  induction turns generalizing mine theirs with
  | nil => exact .intro [] alike
  | cons turn rest ih =>
    have first := simulates.turn alike turn
    unfold Service.run
    generalize mine.turn turn = own at first
    generalize theirs.turn turn = other at first
    obtain @⟨told, left, there, alike⟩ := first
    have others := ih alike
    dsimp only
    generalize left.run rest = own at others
    generalize there.run rest = other at others
    obtain ⟨answers, alike⟩ := others
    exact .intro (told :: answers) alike

end Simulates
end TaskStore
end CodeAudit
