import CodeAudit.Proofs.Store.Atomicity
import CodeAudit.Proofs.Store.Service

/-! What comes of steps through transactions that have ended. In memory such a step changes a copy
that is of no use any more. On the table it is a statement on the connection like any other, of
which nothing stays only if it is refused or falls into the time of another transaction that is
dropped. -/
namespace CodeAudit

/-- Nothing has been written, and no transaction has been given up. -/
def DataStep.Answer.Idle : DataStep.Answer → Prop
  | inserted ⟨.ok (), _⟩ => False
  | inserted ⟨.error cause, _⟩ => cause ≠ .engine .full
  | wrote (.ok ()) => False
  | _ => True

namespace TaskStore
variable {σ τ : Type}

def Turn.StepsThrough (turn : Turn) (i : Nat) : Prop :=
  ∃ fresh step, turn = .ask i (.step fresh step)

variable [TaskStore σ τ]

namespace Service

/-- The turn neither ends a transaction that is open nor finds that ids have run out. -/
def KeepsOpen (service : Service σ τ) (turn : Turn) : Prop :=
  ¬(service.turn turn).1.Exhausted ∧ ∀ i action, turn = .ask i action → ¬turn.StepsThrough i →
    ∀ lease, service.lease? i = some lease → lease.finished = true

/-- A data step through a handle has found on the way that ids have run out. -/
def RanOut (service : Service σ τ) (turns : List Turn) (i : Nat) : Prop :=
  ∃ earlier fresh step later, turns = earlier ++ .ask i (.step fresh step) :: later ∧
    ((service.run earlier).2.turn (.ask i (.step fresh step))).1.Exhausted

/-- A transaction is open that could be committed, and after the turns it is no more: the last of
them rolls it back or gives its handle back, whether they are taken here or elsewhere. -/
def Drops (service elsewhere : Service σ τ) (turns : List Turn) : Prop :=
  ∃ i lease earlier last, service.lease? i = some lease ∧
    (TaskStore.commit lease.handle service.store).value = .ok () ∧
    turns = earlier ++ [.ask i last] ∧ (last = .rollback ∨ last = .release) ∧
    service.Allows KeepsOpen earlier ∧ elsewhere.Allows KeepsOpen earlier

end Service

/-- A mark that commits and rollbacks set on handles, and that stays there. -/
structure Marks (marked : τ → Prop) : Prop where
  perform : ∀ {handle fresh step} {store : σ}, marked handle →
    marked (perform fresh step handle store).2.1
  committed : ∀ {handle} {store : σ}, (commit handle store).value = .ok () →
    marked (commit handle store).state.1
  kept : ∀ {handle} {store : σ}, marked handle → marked (commit handle store).state.1
  rolledBack : ∀ {handle later} {store after : σ}, rollback handle store = .ok (later, after) →
    marked later

variable {marked : τ → Prop}

theorem Marks.act (marks : Marks (σ := σ) marked) {action : Action} {lease later : Lease τ}
    {store : σ} (known : lease.finished = true → marked lease.handle)
      (left : (action.act lease store).2.1 = some later)
    (finished : later.finished = true) : marked later.handle := by
  cases action with
  | step fresh step =>
    obtain rfl := Option.some.inj left
    exact marks.perform (known finished)
  | commit =>
    obtain rfl := Option.some.inj left
    rcases value : (commit lease.handle store).value with fault | ⟨⟩
    · simp only [value, Except.isOk, Except.toBool, Bool.or_false] at finished
      exact marks.kept (known finished)
    · exact marks.committed value
  | rollback =>
    simp only [Action.act] at left
    split at left
    next undone =>
      obtain rfl := Option.some.inj left
      exact marks.rolledBack undone
    · obtain rfl := Option.some.inj left
      exact known finished
  | release => cases left

def Service.Marked (marked : τ → Prop) (service : Service σ τ) : Prop :=
  ∀ i lease, service.lease? i = some lease → lease.finished = true → marked lease.handle

theorem Marks.turn (marks : Marks (σ := σ) marked) {service : Service σ τ}
    (known : service.Marked marked) (turn : Turn) : (service.turn turn).2.Marked marked := by
  intro i lease found finished
  cases turn with
  | begin =>
    rw [Service.turn_begin] at found
    split at found
    · rcases Service.lease?_concat found with old | rfl
      · exact known i lease old finished
      · cases finished
    · exact known i lease found finished
  | ask j action =>
    rcases present : service.lease? j with _ | asked
    · rw [Service.turn_nobody present] at found
      exact known i lease found finished
    · rw [Service.turn_ask present, Service.lease?_set] at found
      split at found
      · exact marks.act (known j asked present) found finished
      · exact known i lease found finished

theorem Marks.run (marks : Marks (σ := σ) marked) (start : σ) (turns : List Turn) :
    (Service.run { store := start } turns).2.Marked marked := by
  have initial : Service.Marked marked ({ store := start } : Service σ τ) := by
    intro i lease found
    simp [Service.lease?] at found
  have keeps {service : Service σ τ} {turn : Turn} (known : service.Marked marked) (_ : True) :
      (service.turn turn).2.Marked marked := marks.turn known turn
  exact Service.run_keeps keeps initial (fun _ _ _ _ => trivial)

end TaskStore

open TaskStore

namespace MemoryStore

theorem marks_stage : Marks (σ := MemoryStore)
    (fun handle : Handle => handle.stage ≠ .working) where
  perform marked := by
    rw [perform_eq]
    exact marked
  committed := by
    intro handle store returned
    simp only [TaskStore.commit, commit] at returned ⊢
    split at returned
    · nofun
    · contradiction
  kept := by
    intro handle store marked
    simp only [TaskStore.commit, commit]
    exact marked
  rolledBack := by
    intro handle later store after undone
    obtain ⟨rfl, _⟩ := Prod.mk.inj (Except.ok.inj undone)
    unfold rollback
    split
    next => nofun
    next ended => exact ended

/-- Two services that differ in the copy that one finished handle keeps, if at all. -/
inductive Beside (i : Nat) : Service MemoryStore Handle → Service MemoryStore Handle → Prop where
  | same (service : Service MemoryStore Handle) : Beside i service service
  | apart (service : Service MemoryStore Handle) {first second : Lease Handle} : i <
      service.leases.length →
      first.finished = second.finished → first.handle.stage = second.handle.stage →
        first.handle.stage ≠ .working →
      Beside i { service with leases := service.leases.set i (some first) }
        { service with leases := service.leases.set i (some second) }

variable {i : Nat} {one other : Service MemoryStore Handle}

theorem commit_ended {handle : Handle} (ended : handle.stage ≠ .working) (store : MemoryStore) :
    TaskStore.commit handle store =
      { value := .error (.transactionFinished "memory"), state := (handle, store) } := by
  simp only [TaskStore.commit, commit]

theorem rollback_ended {handle : Handle} (ended : handle.stage ≠ .working) (store : MemoryStore) :
    TaskStore.rollback handle store = .ok (handle, store) := by
  simp only [TaskStore.rollback, rollback]

/-- Only data steps through the finished handle itself can tell which copy it keeps. -/
theorem Beside.turn (beside : Beside i one other) (turn : Turn) :
    Beside i (one.turn turn).2 (other.turn turn).2 ∧
      (¬turn.StepsThrough i → (one.turn turn).1 = (other.turn turn).1) := by
  cases beside with
  | same => exact ⟨.same _, fun _ => rfl⟩
  | @apart service first second inside finished stage ended =>
    have alsoEnded : second.handle.stage ≠ .working := stage ▸ ended
    have here (lease : Lease Handle) : Service.lease?
        { service with leases := service.leases.set i (some lease) } i =
        some lease := by
      rw [Service.lease?_set, if_pos ⟨rfl, inside⟩]
    cases turn with
    | begin =>
      refine ⟨?_, fun _ => rfl⟩
      have wider : i <
          (service.leases ++ [some ({ handle := begin service.store } : Lease Handle)]).length := by
        rw [List.length_append]
        exact Nat.lt_add_right 1 inside
      simp only [Service.turn_begin, TaskStore.begin, ← List.set_append_left _ _ inside]
      exact .apart { service with
        leases := service.leases ++ [some { handle := begin service.store }] } wider finished
        stage ended
    | ask j action =>
      by_cases own : i = j
      · subst own
        rw [Service.turn_ask (here first), Service.turn_ask (here second)]
        simp only [List.set_set]
        cases action with
        | step fresh step =>
          refine ⟨?_, fun apart => absurd ⟨fresh, step, rfl⟩ apart⟩
          simp only [Action.act, perform_eq]
          exact .apart service inside finished stage ended
        | commit =>
          simp only [Action.act, commit_ended ended, commit_ended alsoEnded]
          exact ⟨.apart service inside (by simp [finished]) stage ended, fun _ => trivial⟩
        | rollback =>
          simp only [Action.act, rollback_ended ended, rollback_ended alsoEnded]
          exact ⟨.apart service inside rfl stage ended, fun _ => trivial⟩
        | release => exact ⟨.same _, fun _ => rfl⟩
      · have away (lease : Lease Handle) : Service.lease?
            { service with leases := service.leases.set i (some lease) } j = service.lease? j := by
          rw [Service.lease?_set, if_neg (fun same => own same.1)]
        rcases found : service.lease? j with _ | lease
        · rw [Service.turn_nobody ((away first).trans found),
            Service.turn_nobody ((away second).trans found)]
          exact ⟨.apart service inside finished stage ended, fun _ => rfl⟩
        · rw [Service.turn_ask ((away first).trans found),
            Service.turn_ask ((away second).trans found)]
          refine ⟨?_, fun _ => rfl⟩
          simp only [List.set_comm _ _ own]
          exact .apart { store := (action.act lease service.store).2.2
                         leases := service.leases.set j (action.act lease service.store).2.1 }
            (by simpa using inside) finished stage ended

theorem Beside.run (beside : Beside i one other) (turns : List Turn) :
    Beside i (one.run turns).2 (other.run turns).2 ∧
      ∀ (k : Nat) (turn : Turn), turns[k]? = some turn → ¬turn.StepsThrough i →
        (one.run turns).1[k]? = (other.run turns).1[k]? := by
  induction turns generalizing one other with
  | nil => exact ⟨beside, nofun⟩
  | cons first turns ih =>
    obtain ⟨onward, told⟩ := beside.turn first
    obtain ⟨final, others⟩ := ih onward
    refine ⟨final, fun k turn taken apart => ?_⟩
    cases k with
    | zero =>
      obtain rfl := Option.some.inj taken
      exact congrArg some (told apart)
    | succ k => exact others k turn taken apart

/-- A data step through a finished handle. -/
theorem Beside.strayed {service : Service MemoryStore Handle} {lease : Lease Handle}
    (found : service.lease? i = some lease) (ended : lease.handle.stage ≠ .working) (fresh : Fresh)
    (step : DataStep) :
    Beside i (service.turn (.ask i (.step fresh step))).2 service := by
  have unchanged : { service with leases := service.leases.set i (some lease) } = service := by
    rw [Service.set_lease found]
  rw [Service.turn_ask found]
  simp only [Action.act, perform_eq]
  conv_rhs => rw [← unchanged]
  exact .apart service (Service.lease?_lt found) rfl rfl ended

theorem not_ranOut (service : Service MemoryStore Handle) (turns : List Turn) (i : Nat) :
    ¬service.RanOut turns i := by
  rintro ⟨earlier, fresh, step, later, _, answer, told, exhausted⟩
  rcases found : (service.run earlier).2.lease? i with _ | lease
  · rw [Service.turn_nobody found] at told
    cases told
  · rw [Service.turn_ask found] at told
    simp only [Action.act, perform_eq] at told
    cases told
    exact not_exhausted fresh step lease.handle.contents exhausted

end MemoryStore

namespace TableStore
open Connection (Handle)

variable {handle : Handle} {store other : TableStore}

theorem commit_ended (ended : handle.stage ≠ .working) (store : TableStore) :
    TaskStore.commit handle store =
      { value := .error (.transactionFinished "sqlite"), state := (handle, store) } := by
  have refused : Connection.commit handle store = .error (.transactionFinished "sqlite") := by
    simp only [Connection.commit]
  simp only [TaskStore.commit, refused, Reply.ofOutcome]

theorem rollback_ended (ended : handle.stage ≠ .working) (store : TableStore) :
    TaskStore.rollback handle store = .ok (handle, store) := by
  simp only [TaskStore.rollback, Connection.rollback]

theorem release_ended (ended : handle.stage ≠ .working) (store : TableStore) :
    (TaskStore.release handle store).1 = store := by
  simp only [TaskStore.release, Connection.release]

theorem commit_open {before : Option TaskTable} (working : handle.stage = .working)
    (pending : store.restore = some before) : TaskStore.commit handle store =
      { value := .ok (), state := ({ stage := .committed }, { store with restore := none }) } := by
  have done : Connection.commit handle store =
      .ok ({ stage := .committed }, { store with restore := none }) := by
    simp only [Connection.commit, Connection.commit?, working, pending]
    rfl
  simp only [TaskStore.commit, done, Reply.ofOutcome]

theorem rollback_open {before : Option TaskTable} (working : handle.stage = .working)
    (pending : store.restore = some before) : TaskStore.rollback handle store =
      .ok ({ stage := .rolledBack }, { store with contents := before, restore := none }) := by
  simp only [TaskStore.rollback, Connection.rollback, Connection.rollback?, working, pending]
  rfl

theorem release_open {before : Option TaskTable} (working : handle.stage = .working)
    (pending : store.restore = some before) :
    (TaskStore.release handle store).1 = { store with contents := before, restore := none } := by
  simp only [TaskStore.release, Connection.release, Connection.rollback?, working, pending]

/-- Only a transaction that is open can be committed. -/
theorem commit_returned (returned : (TaskStore.commit handle store).value = .ok ()) :
    handle.stage = .working ∧ ∃ before, store.restore = some before := by
  by_cases working : handle.stage = .working
  · refine ⟨working, Option.ne_none_iff_exists'.mp (fun none => ?_)⟩
    have refused : Connection.commit handle store = .error (.engine .nothingToCommit) := by
      simp only [Connection.commit, Connection.commit?, working, none]
      rfl
    simp [TaskStore.commit, refused, Reply.ofOutcome] at returned
  · rw [commit_ended working] at returned
    contradiction

theorem marks_stage : Marks (σ := TableStore) (fun handle : Handle => handle.stage ≠ .working) where
  perform marked := by
    rw [perform_eq]
    exact marked
  committed := by
    intro handle store returned
    obtain ⟨working, before, pending⟩ := commit_returned returned
    rw [commit_open working pending]
    nofun
  kept := by
    intro handle store marked
    rw [commit_ended marked]
    exact marked
  rolledBack := by
    intro handle later store after undone
    by_cases working : handle.stage = .working
    · rcases pending : store.restore with _ | before
      · simp only [TaskStore.rollback, Connection.rollback, Connection.rollback?, working,
          pending] at undone
        contradiction
      · rw [rollback_open working pending] at undone
        obtain ⟨rfl, _⟩ := Prod.mk.inj (Except.ok.inj undone)
        nofun
    · rw [rollback_ended working] at undone
      obtain ⟨rfl, _⟩ := Prod.mk.inj (Except.ok.inj undone)
      exact working

/-! ### Steps that leave nothing -/

variable {fresh : Fresh} {step : DataStep}

theorem writing_idle {statement : TaskTable → Except StoreError TaskTable}
    (idle : (store.writing statement).1 ≠ .ok ()) : (store.writing statement).2 = store := by
  rcases wrote : store.writing statement with ⟨cause | ⟨⟩, after⟩
  · exact writing_error wrote
  · rw [wrote] at idle
    contradiction

theorem insert_idle {task : Task}
    (idle : (DataStep.Answer.inserted (store.insert fresh task).1).Idle) :
    (store.insert fresh task).2 = store := by
  by_cases own : task.id ≠ 0
  · rw [insert_own own] at idle ⊢
    refine writing_idle (fun wrote => ?_)
    rw [wrote] at idle
    exact idle
  · have blank : task.id = 0 := Decidable.not_not.mp own
    rcases next : store.contents.map TaskTable.nextId? with _ | _ | id
    · rw [insert_missing blank next]
    · rw [insert_refused blank next] at idle ⊢
      split at idle
      next refuses => rw [if_pos refuses]
      next => exact absurd rfl idle
    · rw [insert_numbered blank next] at idle ⊢
      refine writing_idle (fun wrote => ?_)
      simp only [wrote] at idle
      exact idle

theorem apply_idle (idle : (apply fresh step store).1.Idle) :
    (apply fresh step store).2 = store := by
  cases step with
  | insert task => exact insert_idle idle
  | find id => rfl
  | ofProject project => exact listing_state _
  | doneInGroup group => exact listing_state _
  | write column id value =>
    rw [apply_write] at idle ⊢
    refine writing_idle (fun wrote => ?_)
    rw [wrote] at idle
    exact idle

/-- As long as ids last, a step in an open transaction changes the contents and nothing else. -/
theorem apply_pending {before : Option TaskTable} (pending : store.restore = some before)
    (lasting : ¬(apply fresh step store).1.Exhausted) :
    (apply fresh step store).2 =
      { store with contents := (apply fresh step store).2.contents } := by
  let free : TableStore := { store with restore := none }
  have same : store = within before free := eq_within pending
  obtain ⟨told, kept | ⟨exhausted, _⟩⟩ :=
    apply_within before fresh step (show free.restore = none from rfl)
  · rw [same, kept, apply_frame fresh step (show free.restore = none from rfl)]
    rfl
  · rw [same, told] at lasting
    exact absurd exhausted lasting

/-- Nothing begins while a transaction is open. -/
theorem begin_pending {before : Option TaskTable} (pending : store.restore = some before) :
    ∃ fault, TaskStore.begin store = .error fault := by
  simp only [TaskStore.begin, Connection.begin, Connection.open?]
  split
  · exact ⟨_, rfl⟩
  · rw [pending]
    exact ⟨_, rfl⟩

/-- Asked anything but a data step, a handle that has ended leaves the store alone. -/
theorem act_ended {action : Action} {lease : Lease Handle} (ended : lease.handle.stage ≠ .working)
    (apart : ∀ fresh step, action ≠ .step fresh step) :
    ∃ told changed, ∀ store : TableStore, action.act lease store = (told, changed, store) := by
  cases action with
  | step fresh step => exact absurd rfl (apart fresh step)
  | commit => exact ⟨_, _, fun store => by simp only [Action.act, commit_ended ended]; rfl⟩
  | rollback => exact ⟨_, _, fun store => by simp only [Action.act, rollback_ended ended]; rfl⟩
  | release => exact ⟨_, _, fun store => by simp only [Action.act, release_ended ended]; rfl⟩

/-- Two services in the course of the same transaction, which may have come to different
contents. -/
structure Veiled (i : Nat) (lease : Lease Handle)
    (one other : Service TableStore Handle) : Prop where
  leases : one.leases = other.leases
  frame : one.store = { other.store with contents := one.store.contents }
  pending : ∃ before, other.store.restore = some before
  holds : other.lease? i = some lease
  working : lease.handle.stage = .working
  marked : other.Marked (fun handle => handle.stage ≠ .working)

variable {i : Nat} {lease : Lease Handle} {here there : Service TableStore Handle}

theorem Veiled.lease? (veiled : Veiled i lease here there) (j : Nat) :
    here.lease? j = there.lease? j := by
  rw [Service.lease?, Service.lease?, veiled.leases]

theorem Veiled.restore (veiled : Veiled i lease here there) :
    here.store.restore = there.store.restore := by
  rw [veiled.frame]

theorem Veiled.turn (veiled : Veiled i lease here there) {turn : Turn} (keeps : here.KeepsOpen turn)
    (also : there.KeepsOpen turn) : Veiled i lease (here.turn turn).2 (there.turn turn).2 := by
  obtain ⟨before, pending⟩ := veiled.pending
  have restore : here.store.restore = some before := veiled.restore.trans pending
  have marked := marks_stage.turn veiled.marked turn
  cases turn with
  | begin =>
    obtain ⟨fault, refused⟩ := begin_pending restore
    obtain ⟨other, alsoRefused⟩ := begin_pending pending
    simp only [Service.turn_begin, refused, alsoRefused]
    exact veiled
  | ask j action =>
    rcases found : there.lease? j with _ | asked
    · rw [Service.turn_nobody found, Service.turn_nobody ((veiled.lease? j).trans found)]
      exact veiled
    · have present : here.lease? j = some asked := (veiled.lease? j).trans found
      by_cases steps : ∃ fresh step, action = .step fresh step
      · obtain ⟨fresh, step, rfl⟩ := steps
        have lasting : ¬(apply fresh step here.store).1.Exhausted :=
          fun exhausted => keeps.1 ⟨_, congrArg Prod.fst (turn_step present), exhausted⟩
        have alsoLasting : ¬(apply fresh step there.store).1.Exhausted :=
          fun exhausted => also.1 ⟨_, congrArg Prod.fst (turn_step found), exhausted⟩
        have merge (contents : Option TaskTable) : ({ here.store with contents } : TableStore) =
            { there.store with contents } := by
          rw [veiled.frame]
        rw [turn_step found] at marked
        rw [turn_step present, turn_step found]
        refine ⟨veiled.leases, ?_, ⟨before, ?_⟩, veiled.holds, veiled.working, marked⟩
        · rw [apply_pending pending alsoLasting]
          exact (apply_pending restore lasting).trans (merge _)
        · rw [apply_pending pending alsoLasting]
          exact pending
      · have apart := fun fresh step same => steps ⟨fresh, step, same⟩
        have quiet : ¬Turn.StepsThrough (.ask j action) j := by
          rintro ⟨fresh, step, same⟩
          exact steps ⟨fresh, step, by simpa using same⟩
        have finished := also.2 j action rfl quiet asked found
        have ended := veiled.marked j asked found finished
        have other : j ≠ i := by
          rintro rfl
          obtain rfl := Option.some.inj (found.symm.trans veiled.holds)
          exact ended veiled.working
        obtain ⟨told, changed, acts⟩ := act_ended ended apart
        rw [Service.turn_ask found, acts] at marked
        rw [Service.turn_ask present, Service.turn_ask found, acts, acts]
        refine ⟨?_, veiled.frame, ⟨before, pending⟩, ?_, veiled.working, marked⟩
        · rw [veiled.leases]
        · rw [Service.lease?_set, if_neg (fun same => other same.1)]
          exact veiled.holds

theorem Veiled.run (veiled : Veiled i lease here there) {turns : List Turn}
    (keeps : here.Allows Service.KeepsOpen turns) (also : there.Allows Service.KeepsOpen turns) :
    Veiled i lease (here.run turns).2 (there.run turns).2 := by
  induction turns generalizing here there with
  | nil => exact veiled
  | cons turn turns ih =>
    obtain ⟨here, onward⟩ := Service.allows_cons.mp keeps
    obtain ⟨there, beyond⟩ := Service.allows_cons.mp also
    exact ih (veiled.turn here there) onward beyond

/-- Once the transaction is dropped it does not matter what it had come to. -/
theorem Veiled.dropped (veiled : Veiled i lease here there) {last : Action}
    (ends : last = .rollback ∨ last = .release) :
    (here.turn (.ask i last)).2 = (there.turn (.ask i last)).2 := by
  obtain ⟨before, pending⟩ := veiled.pending
  have restore : here.store.restore = some before := veiled.restore.trans pending
  have merge : ({ here.store with contents := before, restore := none } : TableStore) =
      { there.store with contents := before, restore := none } := by
    rw [veiled.frame]
  rw [Service.turn_ask veiled.holds, Service.turn_ask ((veiled.lease? i).trans veiled.holds)]
  rcases ends with rfl | rfl
  · simp only [Action.act, rollback_open veiled.working restore,
      rollback_open veiled.working pending, merge,
      veiled.leases]
  · simp only [Action.act, release_open veiled.working restore,
      release_open veiled.working pending, merge,
      veiled.leases]

theorem idle_strayed {service : Service TableStore Handle} {answer : DataStep.Answer}
    (found : service.lease? i = some lease)
    (told : (service.turn (.ask i (.step fresh step))).1 = .stepped answer) (idle : answer.Idle) :
    (service.turn (.ask i (.step fresh step))).2 = service := by
  rw [turn_step found] at told ⊢
  cases told
  rw [apply_idle idle]

/-- A transaction that is dropped takes with it what has been made through others in its time. -/
theorem drops_strayed {service : Service TableStore Handle} {turns : List Turn}
    (found : service.lease? i = some lease)
    (marked : service.Marked (fun handle => handle.stage ≠ .working))
    (lasting : ¬(service.turn (.ask i (.step fresh step))).1.Exhausted)
    (drops : service.Drops (service.turn (.ask i (.step fresh step))).2 turns) :
    ((service.turn (.ask i (.step fresh step))).2.run turns).2 = (service.run turns).2 := by
  obtain ⟨j, pendingLease, earlier, last, holds, returned, rfl, ends, keeps, also⟩ := drops
  obtain ⟨working, before, pending⟩ := commit_returned returned
  have unexhausted : ¬(apply fresh step service.store).1.Exhausted := by
    intro exhausted
    exact lasting ⟨_, congrArg Prod.fst (turn_step found), exhausted⟩
  have veiled : Veiled j pendingLease (service.turn (.ask i (.step fresh step))).2 service := by
    rw [turn_step found]
    exact ⟨rfl, apply_pending pending unexhausted, ⟨before, pending⟩, holds, working, marked⟩
  rw [Service.run_append, Service.run_append]
  exact (veiled.run also keeps).dropped ends

end TableStore

namespace Backend
variable {backend : Backend}

/-- What transactions and calls are told later is the same without a data step through a handle
whose transaction had ended by then: committed, rolled back, or given up by the store because ids
had run out. On the table the step must have been refused, or made while another transaction was
open that has been dropped since. -/
theorem finished_inert {start : backend.Store} {before between later : List Turn} {i : Nat}
    {lease : Lease backend.Handle} {service : Service backend.Store backend.Handle}
    (made : service = (Service.run { store := start } before).2)
    (found : service.lease? i = some lease)
    (ended : lease.finished = true ∨ Service.RanOut { store := start } before i) (fresh : Fresh)
    (step : DataStep) {told : Told} {strayed : Service backend.Store backend.Handle}
    (done : service.turn (.ask i (.step fresh step)) = (told, strayed))
    (harmless : backend = .table → (∃ answer, told = .stepped answer ∧ answer.Idle) ∨
      ¬told.Exhausted ∧ service.Drops strayed between) :
    ∀ (k : Nat) (turn : Turn), later[k]? = some turn → ¬turn.StepsThrough i →
      ((strayed.run between).2.run later).1[k]? = ((service.run between).2.run later).1[k]? := by
  obtain ⟨rfl, rfl⟩ : told = (service.turn (.ask i (.step fresh step))).1 ∧
      strayed = (service.turn (.ask i (.step fresh step))).2 := by
    rw [done]
    exact ⟨rfl, rfl⟩
  cases backend with
  | memory =>
    have finished : lease.finished = true := ended.resolve_right (MemoryStore.not_ranOut _ _ i)
    have away : MemoryStore.Handle.stage lease.handle ≠ .working := by
      subst made
      exact MemoryStore.marks_stage.run start before i lease found finished
    have beside := MemoryStore.Beside.strayed found away fresh step
    exact ((beside.run between).1.run later).2
  | table =>
    have marked : Service.Marked (fun handle : Connection.Handle => handle.stage ≠ .working)
        service := by
      subst made
      exact TableStore.marks_stage.run start before
    intro k turn _ _
    refine congrArg
      (fun left : Service TableStore Connection.Handle => (left.run later).1[k]?) ?_
    rcases harmless rfl with ⟨answer, same, idle⟩ | ⟨lasting, drops⟩
    · exact congrArg (fun left => (Service.run left between).2)
        (TableStore.idle_strayed found same idle)
    · exact TableStore.drops_strayed found marked lasting drops

/-- While another transaction is open, a task is inserted through one that has been rolled back. -/
theorem finished_inert_dropped :
    let service : Service TableStore Connection.Handle :=
      { store := { contents := some {}, restore := some (some {}) }
        leases := [some { handle := { stage := .rolledBack }, finished := true },
          some { handle := {} }] }
    let strayed : Service TableStore Connection.Handle :=
      { service with
        store := { service.store with
          contents := some { rows := [draft 5 "a"], sequence := 5 } } }
    (Service.run ({ store := empty .table } : Service TableStore Connection.Handle)
        [.begin, .ask 0 .rollback, .begin]).2 = service ∧
      service.turn (.ask 0 (.step ⟨[], 1⟩ (.insert (draft 5 "a")))) =
        (.stepped (.inserted ⟨.ok (), draft 5 "a"⟩), strayed) ∧
      ((strayed.run [.ask 1 .release]).2.run [.begin, .ask 2 (.step ⟨[], 1⟩ (.find 5))]).1[1]? =
        some (.stepped (.found none)) := by
  intro service strayed
  refine ⟨rfl, rfl, ?_⟩
  have drops : service.Drops strayed [.ask 1 .release] :=
    ⟨1, { handle := {} }, [], .release, rfl, rfl, rfl, .inr rfl, Service.allows_nil,
      Service.allows_nil⟩
  have lasting : ¬Told.Exhausted (.stepped (.inserted ⟨.ok (), draft 5 "a"⟩)) := by
    rintro ⟨answer, same, task, exhausted⟩
    cases same
    cases exhausted
  have other : ¬Turn.StepsThrough (.ask 2 (.step ⟨[], 1⟩ (.find 5))) 0 := by
    rintro ⟨_, _, same⟩
    cases same
  exact @finished_inert .table (empty .table) [.begin, .ask 0 .rollback, .begin] [.ask 1 .release]
    [.begin, .ask 2 (.step ⟨[], 1⟩ (.find 5))] 0 _ service rfl rfl (.inl rfl) ⟨[], 1⟩
    (.insert (draft 5 "a")) _ strayed rfl (fun _ => .inr ⟨lasting, drops⟩) 1 _ rfl other

/-- Ids run out in a transaction, which is rolled back at once: what it has written is gone. What is
written through it after that is there to stay, although it is dropped. -/
theorem rolled_back_write_stays :
    let last : UInt64 := 9223372036854775807
    let row := draft last "a"
    let before : List Turn :=
      [.begin, .ask 0 (.step ⟨[], 1⟩ (.insert row)), .ask 0 .commit, .ask 0 .release, .begin,
        .ask 1 (.step ⟨[], 1⟩ (.write .shortResult last (utf8 "early"))),
        .ask 1 (.step ⟨utf8 "b", 1⟩ (.insert {}))]
    let service : Service TableStore Connection.Handle :=
      (Service.run { store := empty .table } before).2
    let strayed := service.turn (.ask 1 (.step ⟨[], 1⟩ (.write .result last (utf8 "late"))))
    let later : List Turn := [.ask 1 .release, .begin, .ask 2 (.step ⟨[], 1⟩ (.find last))]
    Service.RanOut { store := empty .table } before 1 ∧
      service.store = { contents := some { rows := [row], sequence := Int64.maxValue } } ∧
      (service.run later).1 =
        [.released, .begun (.ok ()), .stepped (.found (some row))] ∧
      (strayed.2.run later).1 =
        [.released, .begun (.ok ()),
          .stepped (.found (some { row with result := utf8 "late" }))] := by
  intro last row before service strayed later
  refine ⟨?_, rfl, rfl, rfl⟩
  exact ⟨before.dropLast, ⟨utf8 "b", 1⟩, .insert {}, [], rfl,
    .inserted { status := .error (.engine .full), task := { uuid := utf8 "b", createdAt := 1 } },
    rfl, _, rfl⟩

end Backend
end CodeAudit
