import CodeAudit.Proofs.Store.Steps

/-! A store in use. Transactions may be begun while others are open, and handles are asked in any
order, also after they have been committed or rolled back, until they are given back. -/
namespace CodeAudit
namespace TaskStore

/-- What is asked of a handle. -/
inductive Action where
  | step (fresh : Fresh) (step : DataStep)
  | commit
  | rollback
  /-- Gives the handle back. -/
  | release

/-- What is asked of a store in use. Handles are numbered as they are given out. -/
inductive Turn where
  | begin
  | ask (handle : Nat) (action : Action)

inductive Told where
  | begun (outcome : Except Fault Unit)
  | stepped (answer : DataStep.Answer)
  | ended (outcome : Except Fault Unit)
  | released
  /-- There is no such handle, or it has been given back. -/
  | nobody

def Told.Exhausted (told : Told) : Prop := ∃ answer, told = .stepped answer ∧ answer.Exhausted

/-- A handle that has been given out, and whether its commit or a rollback has returned. -/
structure Lease (τ : Type) where
  handle : τ
  finished : Bool := false

/-- A store with the handles that it has given out, or nothing where one has been given back. -/
structure Service (σ τ : Type) where
  store : σ
  leases : List (Option (Lease τ)) := []

variable {σ τ : Type}

namespace Service
variable {service : Service σ τ} {i : Nat} {lease : Lease τ}

def lease? (service : Service σ τ) (i : Nat) : Option (Lease τ) := service.leases[i]?.join

theorem lease?_lt (found : service.lease? i = some lease) : i < service.leases.length := by
  apply Nat.lt_of_not_le
  intro beyond
  simp [lease?, List.getElem?_eq_none beyond] at found

/-- A lease put where it stands changes nothing. -/
theorem set_lease (found : service.lease? i = some lease) :
    service.leases.set i (some lease) = service.leases := by
  have inside := lease?_lt found
  rw [lease?, List.getElem?_eq_getElem inside] at found
  have here : service.leases[i] = some lease := found
  rw [← here, List.set_getElem_self]

theorem lease?_set {store : σ} {changed : Option (Lease τ)} {j : Nat} :
    lease? { store, leases := service.leases.set i changed } j =
      if i = j ∧ i < service.leases.length then changed else service.lease? j := by
  unfold lease?
  rw [List.getElem?_set]
  by_cases same : i = j
  · subst same
    by_cases inside : i < service.leases.length
    · simp [inside]
    · simp [inside]
  · simp [same]

theorem lease?_concat {store : σ} {handle : τ} {j : Nat}
    (found : lease? { store, leases := service.leases ++ [some { handle }] } j = some lease) :
    service.lease? j = some lease ∨ lease = { handle } := by
  unfold lease? at found ⊢
  rw [List.getElem?_append] at found
  split at found
  · exact .inl found
  · rw [List.getElem?_singleton] at found
    split at found
    · exact .inr (Option.some.inj found).symm
    · contradiction

/-- One property of the store and another of its handles. -/
structure Has (P : σ → Prop) (Q : τ → Prop) (service : Service σ τ) : Prop where
  store : P service.store
  handles : ∀ i lease, service.lease? i = some lease → Q lease.handle

theorem has_start {P : σ → Prop} {Q : τ → Prop} {start : σ} (initial : P start) :
    Has P Q ({ store := start } : Service σ τ) := by
  refine ⟨initial, fun i lease found => ?_⟩
  simp [lease?] at found

end Service

variable [TaskStore σ τ]

def Action.act (action : Action) (lease : Lease τ) (store : σ) : Told × Option (Lease τ) × σ :=
  match action with
  | .step fresh data =>
      let (answer, handle, store) := perform fresh data lease.handle store
      (.stepped answer, some { lease with handle }, store)
  | .commit =>
      let reply := TaskStore.commit lease.handle store
      let lease := { handle := reply.state.1, finished := lease.finished || reply.value.isOk }
      (.ended reply.value, some lease, reply.state.2)
  | .rollback =>
      match TaskStore.rollback lease.handle store with
      | .ok (handle, store) => (.ended (.ok ()), some { handle, finished := true }, store)
      | .error fault => (.ended (.error fault), some lease, store)
  | .release => (.released, none, (TaskStore.release lease.handle store).1)

namespace Service

def turn (service : Service σ τ) : Turn → Told × Service σ τ
  | .begin =>
      match TaskStore.begin service.store with
      | .ok (handle, store) =>
          (.begun (.ok ()), { store, leases := service.leases ++ [some { handle }] })
      | .error fault => (.begun (.error fault), service)
  | .ask i action =>
      match service.lease? i with
      | none => (.nobody, service)
      | some lease =>
          let (told, lease, store) := action.act lease service.store
          (told, { store, leases := service.leases.set i lease })

def run (service : Service σ τ) : List Turn → List Told × Service σ τ
  | [] => ([], service)
  | turn :: turns =>
      let (told, after) := service.turn turn
      let (others, final) := after.run turns
      (told :: others, final)

def Allows (service : Service σ τ) (allowed : Service σ τ → Turn → Prop)
    (turns : List Turn) : Prop :=
  ∀ earlier turn later, turns = earlier ++ turn :: later → allowed (service.run earlier).2 turn

variable {service : Service σ τ} {allowed : Service σ τ → Turn → Prop} {turns : List Turn}
  {turn : Turn} {i : Nat} {action : Action} {lease : Lease τ}

theorem turn_ask (found : service.lease? i = some lease) : service.turn (.ask i action) =
    ((action.act lease service.store).1,
      { store := (action.act lease service.store).2.2
        leases := service.leases.set i (action.act lease service.store).2.1 }) := by
  simp only [Service.turn, found]

theorem turn_nobody (absent : service.lease? i = none) :
    service.turn (.ask i action) = (.nobody, service) := by
  simp only [Service.turn, absent]

theorem turn_begin : service.turn .begin =
    match TaskStore.begin service.store with
    | .ok (handle, store) =>
      (.begun (.ok ()), { store, leases := service.leases ++ [some { handle }] })
    | .error fault => (.begun (.error fault), service) := rfl

theorem run_append (first second : List Turn) :
    (service.run (first ++ second)).2 = ((service.run first).2.run second).2 := by
  induction first generalizing service with
  | nil => rfl
  | cons turn turns ih => exact ih

theorem allows_nil : service.Allows allowed [] := by
  intro earlier turn later split
  simp at split

theorem allows_cons : service.Allows allowed (turn :: turns) ↔
    allowed service turn ∧ (service.turn turn).2.Allows allowed turns := by
  constructor
  · intro allows
    refine ⟨allows [] turn turns rfl, fun earlier next later split => ?_⟩
    exact allows (turn :: earlier) next later (congrArg (turn :: ·) split)
  · rintro ⟨here, onward⟩ earlier next later split
    cases earlier with
    | nil =>
      obtain ⟨rfl, rfl⟩ := List.cons.inj split
      exact here
    | cons first earlier =>
      obtain ⟨rfl, rest⟩ := List.cons.inj split
      exact onward earlier next later rest

/-- What every allowed turn keeps holds after all of them. -/
theorem run_keeps {P : Service σ τ → Prop}
    (keeps : ∀ {service turn}, P service → allowed service turn → P (service.turn turn).2)
    (initial : P service) (allows : service.Allows allowed turns) : P (service.run turns).2 := by
  induction turns generalizing service with
  | nil => exact initial
  | cons turn turns ih =>
    obtain ⟨here, onward⟩ := allows_cons.mp allows
    exact ih (keeps initial here) onward

end Service

variable {P : σ → Prop} {Q : τ → Prop} {service : Service σ τ}

theorem Settles.act (settles : Settles P Q) {action : Action} {lease : Lease τ} {store : σ}
    (known : P store)
    (own : Q lease.handle) (steps : ∀ fresh step, action = .step fresh step →
      Q (perform fresh step lease.handle store).2.1 ∧
        P (perform fresh step lease.handle store).2.2) :
    (∀ later, (action.act lease store).2.1 = some later → Q later.handle) ∧
      P (action.act lease store).2.2 := by
  cases action with
  | step fresh step =>
    obtain ⟨handle, after⟩ := steps fresh step rfl
    exact ⟨fun later left => Option.some.inj left ▸ handle, after⟩
  | commit =>
    obtain ⟨handle, after⟩ := settles.commit known own
    exact ⟨fun later left => Option.some.inj left ▸ handle, after⟩
  | rollback =>
    simp only [Action.act]
    split
    next undone =>
      obtain ⟨handle, after⟩ := settles.rollback known own undone
      exact ⟨fun later left => Option.some.inj left ▸ handle, after⟩
    next => exact ⟨fun later left => Option.some.inj left ▸ own, known⟩
  | release => exact ⟨nofun, settles.release known own⟩

/-- Whatever settles keeps, turns keep as far as data steps do. -/
theorem Settles.turn {turn : Turn} (settles : Settles P Q) (has : service.Has P Q)
    (steps : ∀ i lease fresh step, turn = .ask i (.step fresh step) →
      service.lease? i = some lease →
      Q (perform fresh step lease.handle service.store).2.1 ∧
        P (perform fresh step lease.handle service.store).2.2) :
    (service.turn turn).2.Has P Q := by
  cases turn with
  | begin =>
    rw [Service.turn_begin]
    split
    next began =>
      obtain ⟨handle, after⟩ := settles.begin has.store began
      refine ⟨after, fun i lease found => ?_⟩
      rcases Service.lease?_concat found with old | rfl
      · exact has.handles i lease old
      · exact handle
    next => exact has
  | ask i action =>
    rcases found : service.lease? i with _ | lease
    · rw [Service.turn_nobody found]
      exact has
    · rw [Service.turn_ask found]
      obtain ⟨handle, after⟩ := settles.act has.store (has.handles i lease found)
        (fun fresh step same => steps i lease fresh step (same ▸ rfl) found)
      refine ⟨after, fun j other there => ?_⟩
      rw [Service.lease?_set] at there
      split at there
      · exact handle other there
      · exact has.handles j other there

theorem Keeps.turn (keeps : Keeps P Q) (has : service.Has P Q) (turn : Turn) :
    (service.turn turn).2.Has P Q :=
  keeps.toSettles.turn has
    (fun i lease fresh step _ found => keeps.perform has.store (has.handles i lease found)
      fresh step)

end TaskStore

open TaskStore

namespace TableStore
open Connection (Handle)

/-- On the table it makes no difference through which handle a step is made. -/
theorem turn_step {service : Service TableStore Handle} {fresh : Fresh} {step : DataStep} {i : Nat}
    {lease : Lease Handle} (found : service.lease? i = some lease) :
    service.turn (.ask i (.step fresh step)) =
      (.stepped (apply fresh step service.store).1,
        { service with store := (apply fresh step service.store).2 }) := by
  rw [Service.turn_ask found]
  simp only [Action.act, perform_eq, Service.set_lease found]

end TableStore
end CodeAudit
