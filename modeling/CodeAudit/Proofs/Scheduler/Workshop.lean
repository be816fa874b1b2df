import CodeAudit.Proofs.Scheduler.Runs
import Mathlib.Logic.Function.Basic

/-! A queue among threads. Any number of threads offer groups, ask for them and shut the queue,
workers take groups on threads of their own, and others wait for the workers to end. Groups are
handed out in the order in which they came in, none is lost or handed out twice, and nobody is told
that there are no more before all have been handed out. -/
namespace CodeAudit
namespace GroupQueue

inductive Taker where
  | thread (t : Nat)
  | worker (i : Nat)
deriving DecidableEq, Repr

/-- What calls have come to, at the moment at which they take effect. -/
inductive Event where
  | accepted (thread : Nat) (group : TaskGroup)
  | refused (thread : Nat) (group : TaskGroup) (fault : Fault)
  | closed (thread : Nat)
  | handed (taker : Taker) (group : TaskGroup)
  /-- The taker has been told that there are no more groups. -/
  | nothing (taker : Taker)
  | started (thread worker : Nat)
  | joined (thread worker : Nat)
  | discarded (thread worker : Nat)

def Event.accepted? : Event → Option TaskGroup
  | accepted _ group => some group
  | _ => none

def Event.handed? : Event → Option TaskGroup
  | handed _ group => some group
  | _ => none

def accepted (events : List Event) : List TaskGroup := events.filterMap Event.accepted?

def handed (events : List Event) : List TaskGroup := events.filterMap Event.handed?

def Closed (events : List Event) : Prop := ∃ thread, Event.closed thread ∈ events

def Started (events : List Event) (worker : Nat) : Prop :=
  ∃ thread, Event.started thread worker ∈ events

/-- The queue has been shut and every group that it took has been handed out. -/
def Drained (events : List Event) : Prop := Closed events ∧ accepted events = handed events

def Event.Follows (before : List Event) : Event → Prop
  | accepted _ _ => ¬Closed before
  | refused _ _ fault => Closed before ∧ fault = .queueClosed
  | handed _ group => (GroupQueue.accepted before)[(GroupQueue.handed before).length]? = some group
  | nothing _ => Drained before
  | joined _ i | discarded _ i => Started before i → Drained before
  | closed _ | started _ _ => True

end GroupQueue

open GroupQueue (Event)

namespace Workshop

/-- A call that does not come back at once. -/
inductive Wait where
  | dequeue
  | join (worker : Nat)
  | discard (worker : Nat)

end Workshop

structure Workshop (σ ε : Type) where
  pool : WorkerPool σ ε
  /-- The workers with a thread that nobody has joined. -/
  manned : List Nat := []
  /-- The call that a thread is inside of. -/
  inside : Nat → Option Workshop.Wait := fun _ => none

namespace Workshop
variable {σ τ ε : Type} [TaskStore σ τ]

def withQueue (shop : Workshop σ ε) (queue : GroupQueue) : Workshop σ ε :=
  { shop with pool := { shop.pool with queue } }

def enter (shop : Workshop σ ε) (thread : Nat) (wait : Option Wait) : Workshop σ ε :=
  { shop with inside := Function.update shop.inside thread wait }

def answer (pool : WorkerPool σ ε) (i : Nat) : Option Event :=
  match (pool.workers[i]?).map Worker.stage with
  | some .idle =>
      match pool.queue.dequeue with
      | .group next _ => some (.handed (.worker i) next)
      | .drained => some (.nothing (.worker i))
      | .nothingYet => none
  | _ => none

/-- One step of one thread. A thread inside a call does nothing else until the call comes back,
which it may never do. -/
inductive Step (crew : Crew ε) (shop : Workshop σ ε) : Option Event → Workshop σ ε → Prop where
  | enqueue : shop.inside t = none → shop.pool.queue.enqueue group = .ok queue →
      Step crew shop (some (.accepted t group)) (shop.withQueue queue)
  | refuse : shop.inside t = none → shop.pool.queue.enqueue group = .error fault →
      Step crew shop (some (.refused t group fault)) shop
  | shutDown : shop.inside t = none →
      Step crew shop (some (.closed t)) (shop.withQueue shop.pool.queue.shutDown)
  | dequeue : shop.inside t = none → Step crew shop none (shop.enter t (some .dequeue))
  | receive : shop.inside t = some .dequeue → shop.pool.queue.dequeue = .group next queue →
      Step crew shop (some (.handed (.thread t) next)) ((shop.withQueue queue).enter t none)
  | leave : shop.inside t = some .dequeue → shop.pool.queue.dequeue = .drained →
      Step crew shop (some (.nothing (.thread t))) (shop.enter t none)
  | start : shop.inside t = none → i ∉ shop.manned → shop.pool.workers[i]? = some worker →
      Step crew shop (some (.started t i))
        { shop with
          pool := { shop.pool with
            workers := shop.pool.workers.set i { worker with stage := .idle } }
          manned := i :: shop.manned }
  | work : i ∈ shop.manned → Step crew shop (answer shop.pool i)
      { shop with pool := shop.pool.step crew i }
  | joinNobody : shop.inside t = none → i ∉ shop.manned → Step crew shop (some (.joined t i)) shop
  | join : shop.inside t = none → i ∈ shop.manned →
      Step crew shop none (shop.enter t (some (.join i)))
  | joined : shop.inside t = some (.join i) → shop.pool.workers[i]? = some worker →
      worker.stage = .finished →
      Step crew shop (some (.joined t i)) ({ shop with manned := shop.manned.erase i }.enter t none)
  | discardNobody : shop.inside t = none → i ∉ shop.manned →
      Step crew shop (some (.discarded t i)) shop
  /-- A worker that is discarded with a thread of its own shuts the queue first. -/
  | discard : shop.inside t = none → i ∈ shop.manned →
      Step crew shop (some (.closed t))
        ((shop.withQueue shop.pool.queue.shutDown).enter t (some (.discard i)))
  | discarded : shop.inside t = some (.discard i) → shop.pool.workers[i]? = some worker →
      worker.stage = .finished →
      Step crew shop (some (.discarded t i))
        ({ shop with manned := shop.manned.erase i }.enter t none)

/-- What the steps of any number of threads, in any order, have come to. -/
inductive Reaches (crew : Crew ε) (start : Workshop σ ε) : List Event → Workshop σ ε → Prop where
  | refl : Reaches crew start [] start
  | step : Reaches crew start events shop → Step crew shop event next →
      Reaches crew start (events ++ event.toList) next

def opening (store : σ) (env : ε) (workers : Nat) : Workshop σ ε :=
  { pool := WorkerPool.start store env {} workers }

end Workshop

namespace GroupQueue
variable {events more before after : List Event} {event : Event} {queue : GroupQueue}

@[simp] theorem accepted_append : accepted (events ++ more) = accepted events ++ accepted more :=
  List.filterMap_append

@[simp] theorem handed_append : handed (events ++ more) = handed events ++ handed more :=
  List.filterMap_append

def Coherent (events : List Event) : Prop :=
  ∀ before event after, events = before ++ event :: after → event.Follows before

theorem Coherent.concat (coherent : Coherent events) (follows : event.Follows events) :
    Coherent (events ++ [event]) := by
  intro before other after split
  rcases List.eq_nil_or_concat after with rfl | ⟨rest, last, rfl⟩
  · obtain ⟨rfl, same⟩ := List.append_inj' split rfl
    obtain rfl := List.singleton_inj.mp same
    exact follows
  · rw [List.concat_eq_append, ← List.cons_append, ← List.append_assoc] at split
    exact coherent before other rest (List.append_inj' split rfl).1

structure Event.Bare (event : Event) : Prop where
  accepted : GroupQueue.accepted [event] = []
  handed : GroupQueue.handed [event] = []
  opened : ¬Closed [event]

/-- No more groups come out of the queue, and none goes in. -/
def Spent (queue : GroupQueue) : Prop := queue.closed = true ∧ queue.waiting = []

end GroupQueue

namespace Workshop
variable {σ τ ε : Type} [TaskStore σ τ] {crew : Crew ε} {shop next : Workshop σ ε}
  {events : List Event}

open GroupQueue

variable {queue after : GroupQueue} {workers changed : List Worker} {manned others : List Nat}
  {group : TaskGroup} {rest : List TaskGroup} {fault : Fault} {event : Event} {taker : Taker}
  {worker : Worker} {i t : Nat}

/-- What holds of a queue, of the workers before it and of the history at any time. -/
structure Stands (events : List Event) (queue : GroupQueue) (workers : List Worker)
    (manned : List Nat) : Prop where
  waiting : accepted events = handed events ++ queue.waiting
  closed : queue.closed = true ↔ Closed events
  finished : ∀ worker ∈ workers, worker.stage = .finished → queue.Spent
  /-- A worker whose thread has been joined has seen the queue drained. -/
  left : ∀ i, Started events i → i ∈ manned ∨ queue.Spent
  coherent : Coherent events

theorem Stands.drained (stands : Stands events queue workers manned) (spent : queue.Spent) :
    Drained events := by
  refine ⟨stands.closed.mp spent.1, ?_⟩
  rw [stands.waiting, spent.2, List.append_nil]

/-- A further event, of which something goes in at the end of the queue or comes out in front. -/
theorem Stands.concat (stands : Stands events queue workers manned) (follows : event.Follows events)
    (waiting : queue.waiting ++ accepted [event] = handed [event] ++ after.waiting)
    (closed : after.closed = true ↔ queue.closed = true ∨ Closed [event])
    (finished : ∀ worker ∈ changed, worker.stage = .finished → after.Spent)
    (left : ∀ i, Started events i ∨ Started [event] i → i ∈ others ∨ after.Spent) :
    Stands (events ++ [event]) after changed others where
  waiting := by
    rw [accepted_append, handed_append, stands.waiting, List.append_assoc, waiting,
      List.append_assoc]
  closed := by
    rw [closed, stands.closed]
    simp only [Closed, List.mem_append, exists_or]
  finished := finished
  left := by
    intro i started
    refine left i ?_
    simpa only [Started, List.mem_append, exists_or] using started
  coherent := stands.coherent.concat follows

theorem Stands.accept (stands : Stands events queue workers manned)
    (taken : queue.enqueue group = .ok after) :
    Stands (events ++ [.accepted t group]) after workers manned := by
  unfold GroupQueue.enqueue at taken
  split at taken
  · contradiction
  next opened =>
    obtain rfl := Except.ok.inj taken
    have unspent : ¬queue.Spent := fun spent => opened spent.1
    refine stands.concat (fun closed => opened (stands.closed.mpr closed)) ?_ ?_ ?_ ?_
    · rfl
    · simp [Closed]
    · exact fun worker member ended => absurd (stands.finished worker member ended) unspent
    · rintro i (started | ⟨_, started⟩)
      · exact .inl ((stands.left i started).resolve_right unspent)
      · simp at started

theorem enqueue_error (refused : queue.enqueue group = .error fault) :
    queue.closed = true ∧ fault = .queueClosed := by
  unfold GroupQueue.enqueue at refused
  split at refused
  next closed => exact ⟨closed, (Except.error.inj refused).symm⟩
  · contradiction

theorem Stands.refuse (stands : Stands events queue workers manned)
    (refused : queue.enqueue group = .error fault) :
    Stands (events ++ [.refused t group fault]) queue workers manned := by
  obtain ⟨closed, rfl⟩ := enqueue_error refused
  refine stands.concat ⟨stands.closed.mp closed, rfl⟩ ?_ ?_ stands.finished ?_
  · exact List.append_nil _
  · simp [Closed]
  · rintro i (started | ⟨_, started⟩)
    · exact stands.left i started
    · simp at started

theorem Stands.shut (stands : Stands events queue workers manned) :
    Stands (events ++ [.closed t]) queue.shutDown workers manned := by
  have spent (before : queue.Spent) : queue.shutDown.Spent := ⟨rfl, before.2⟩
  refine stands.concat trivial ?_ ?_ ?_ ?_
  · exact List.append_nil _
  · simp [GroupQueue.shutDown, Closed]
  · exact fun worker member ended => spent (stands.finished worker member ended)
  · rintro i (started | ⟨_, started⟩)
    · exact (stands.left i started).imp_right spent
    · simp at started

/-- The group in front goes to whoever asks first. -/
theorem Stands.hand (stands : Stands events queue workers manned)
    (waiting : queue.waiting = group :: rest)
    (kept : ∀ worker ∈ changed, worker.stage = .finished → worker ∈ workers) :
    Stands (events ++ [.handed taker group]) { queue with waiting := rest } changed manned := by
  have unspent : ¬queue.Spent := fun spent => by
    rw [spent.2] at waiting
    contradiction
  refine stands.concat ?_ ?_ ?_ ?_ ?_
  · change (accepted events)[(handed events).length]? = some group
    rw [stands.waiting, waiting, List.getElem?_append_right (Nat.le_refl _), Nat.sub_self]
    rfl
  · rw [waiting]
    exact List.append_nil _
  · simp [Closed]
  · exact fun worker member ended =>
      absurd (stands.finished worker (kept worker member ended) ended) unspent
  · rintro i (started | ⟨_, started⟩)
    · exact .inl ((stands.left i started).resolve_right unspent)
    · simp at started

/-- Once the queue is spent it makes no difference which workers have ended or have been joined. -/
theorem Stands.spend (stands : Stands events queue workers manned) (spent : queue.Spent)
    (follows : event.Follows events) (bare : event.Bare) :
    Stands (events ++ [event]) queue changed others := by
  refine stands.concat follows ?_ ?_ (fun _ _ _ => spent) (fun _ _ => .inr spent)
  · rw [bare.accepted, bare.handed, List.append_nil, List.nil_append]
  · simp [bare.opened]

theorem Stands.begin (stands : Stands events queue workers manned) :
    Stands (events ++ [.started t i]) queue (workers.set i { worker with stage := .idle })
      (i :: manned) := by
  refine stands.concat trivial ?_ ?_ ?_ ?_
  · exact List.append_nil _
  · simp [Closed]
  · intro other member ended
    rcases List.mem_or_eq_of_mem_set member with member | rfl
    · exact stands.finished other member ended
    · contradiction
  · rintro j (started | ⟨_, started⟩)
    · exact (stands.left j started).imp_left (List.mem_cons_of_mem _)
    · simp only [List.mem_singleton, Event.started.injEq] at started
      exact .inl (started.2 ▸ List.mem_cons_self)

theorem Stands.pass (stands : Stands events queue workers manned) (unmanned : i ∉ manned)
    (follows : (Started events i → Drained events) → event.Follows events) (bare : event.Bare)
    (unstarted : ∀ j, ¬Started [event] j) : Stands (events ++ [event]) queue workers manned := by
  refine stands.concat (follows (fun started => ?_)) ?_ ?_ stands.finished ?_
  · exact stands.drained ((stands.left i started).resolve_left unmanned)
  · rw [bare.accepted, bare.handed, List.append_nil, List.nil_append]
  · simp [bare.opened]
  · rintro j (started | started)
    · exact stands.left j started
    · exact absurd started (unstarted j)

abbrev Sound (events : List Event) (shop : Workshop σ ε) : Prop :=
  Stands events shop.pool.queue shop.pool.workers shop.manned

theorem Sound.spent {worker : Worker} (sound : Sound events shop)
    (found : shop.pool.workers[i]? = some worker) (ended : worker.stage = .finished) :
    shop.pool.queue.Spent :=
  sound.finished worker (List.mem_of_getElem? found) ended

theorem Stands.work (stands : Stands events queue workers manned)
    (going : worker.stage ≠ .finished) :
    Stands events queue (workers.set i worker) manned := by
  refine ⟨stands.waiting, stands.closed, fun other member ended => ?_, stands.left, stands.coherent⟩
  rcases List.mem_or_eq_of_mem_set member with member | rfl
  · exact stands.finished other member ended
  · contradiction

theorem Sound.work (sound : Sound events shop) (i : Nat) :
    Stands (events ++ (answer shop.pool i).toList) (shop.pool.step crew i).queue
      (shop.pool.step crew i).workers
      shop.manned := by
  have moves := WorkerPool.step_moves crew shop.pool i
  generalize shop.pool.acts crew i = done at moves
  generalize shop.pool.step crew i = moved at moves ⊢
  cases moves with
  | absent found => simpa [answer, found] using sound
  | rest found stage => simpa [answer, found, stage] using sound
  | wait found stage waiting closed =>
    simpa [answer, found, stage, GroupQueue.dequeue, waiting, closed] using sound
  | leave found stage waiting closed replaces =>
    obtain ⟨workers, _, _, queue⟩ := replaces
    have spent : shop.pool.queue.Spent := ⟨closed, waiting⟩
    have told : answer shop.pool i = some (.nothing (.worker i)) := by
      simp [answer, found, stage, GroupQueue.dequeue, waiting, closed]
    rw [queue, told]
    exact sound.spend spent (sound.drained spent) ⟨rfl, rfl, by simp [Closed]⟩
  | take found stage waiting replaces =>
    rename_i group _
    obtain ⟨workers, _, _, queue⟩ := replaces
    have told : answer shop.pool i = some (.handed (.worker i) group) := by
      simp [answer, found, stage, GroupQueue.dequeue, waiting]
    rw [workers, queue, told]
    refine sound.hand waiting (fun other member ended => ?_)
    rcases List.mem_or_eq_of_mem_set member with member | rfl
    · exact member
    · contradiction
  | work found stage _ replaces | finish found stage _ replaces | abort found stage _ replaces =>
    obtain ⟨workers, _, _, queue⟩ := replaces
    rw [workers, queue]
    simpa [answer, found, stage] using Stands.work sound (by simp)

theorem dequeue_group (offered : queue.dequeue = .group group after) :
    ∃ rest, queue.waiting = group :: rest ∧ after = { queue with waiting := rest } := by
  unfold GroupQueue.dequeue at offered
  split at offered
  next next rest waiting =>
    obtain ⟨rfl, rfl⟩ := GroupQueue.Offer.group.inj offered
    exact ⟨rest, waiting, rfl⟩
  · split at offered <;> contradiction

theorem dequeue_drained (offered : queue.dequeue = .drained) : queue.Spent := by
  unfold GroupQueue.dequeue at offered
  split at offered
  · contradiction
  next waiting =>
    split at offered
    next closed => exact ⟨closed, waiting⟩
    · contradiction

theorem Sound.step {event : Option Event} (sound : Sound events shop)
    (step : Step crew shop event next) :
    Sound (events ++ event.toList) next := by
  cases step with
  | enqueue _ taken => exact sound.accept taken
  | refuse _ refused => exact sound.refuse refused
  | shutDown _ => exact sound.shut
  | dequeue _ | join _ _ =>
    rw [Option.toList_none, List.append_nil]
    exact sound
  | receive _ offered =>
    obtain ⟨rest, waiting, rfl⟩ := dequeue_group offered
    exact sound.hand waiting (fun _ member _ => member)
  | leave _ offered =>
    have spent := dequeue_drained offered
    exact sound.spend spent (sound.drained spent) ⟨rfl, rfl, by simp [Closed]⟩
  | start _ _ _ => exact sound.begin
  | work _ => exact sound.work _
  | joinNobody _ unmanned | discardNobody _ unmanned =>
    exact sound.pass unmanned id ⟨rfl, rfl, by simp [Closed]⟩ (by simp [Started])
  | discard _ _ => exact sound.shut
  | joined _ found ended | discarded _ found ended =>
    have spent := sound.spent found ended
    exact sound.spend spent (fun _ => sound.drained spent) ⟨rfl, rfl, by simp [Closed]⟩

/-- Only a call that offers a group is refused, and nothing comes of it. -/
theorem Step.refused (step : Step crew shop (some (.refused t group fault)) next) :
    shop.pool.queue.enqueue group = .error fault ∧ next = shop := by
  generalize same : some (Event.refused t group fault) = event at step
  cases step with
  | refuse _ refused =>
    simp only [Option.some.injEq, Event.refused.injEq] at same
    obtain ⟨_, rfl, rfl⟩ := same
    exact ⟨refused, rfl⟩
  | work _ =>
    unfold answer at same
    split at same
    · split at same <;> simp at same
    · contradiction
  | _ => simp at same

theorem opening_sound (store : σ) (env : ε) (count : Nat) : Sound [] (opening store env count) where
  waiting := rfl
  closed := by simp [opening, WorkerPool.start, Closed]
  finished := by
    intro worker member ended
    obtain rfl := List.eq_of_mem_replicate member
    contradiction
  left := by simp [Started]
  coherent := by simp [Coherent]

theorem Reaches.sound {start : Workshop σ ε} (reached : Reaches crew start events shop)
    (sound : Sound [] start) :
    Sound events shop := by
  induction reached with
  | refl => exact sound
  | step _ step ih => exact ih.step step

theorem dequeue_nothingYet : queue.dequeue = .nothingYet ↔
    queue.waiting = [] ∧ queue.closed = false := by
  rcases queue with ⟨_ | ⟨next, rest⟩, _ | _⟩ <;> simp [GroupQueue.dequeue]

/-- Whatever threads and workers do, groups are handed out in the order in which they came in and
the queue holds those that have not been handed out. Once it is shut, it refuses further groups and
stays as it is. Nobody is told that there are no more groups, and nobody who waits for a worker that
was started goes on, before the queue has been shut and every group in it has been handed out;
whoever asks for a group waits just as long as the queue is open and empty. -/
theorem queue_lossless {store : σ} {env : ε} {count : Nat}
    (reached : Reaches crew (opening store env count) events shop) :
    handed events <+: accepted events ∧ accepted events = handed events ++ shop.pool.queue.waiting ∧
      Coherent events ∧
      (Closed events → ∀ group, shop.pool.queue.enqueue group = .error .queueClosed) ∧
      (∀ thread group fault next, Step crew shop (some (.refused thread group fault)) next →
        fault.kind = .badState ∧ next = shop) ∧
      (shop.pool.queue.dequeue = .nothingYet ↔ accepted events = handed events ∧
        ¬Closed events) := by
  have sound := reached.sound (opening_sound store env count)
  refine ⟨⟨_, sound.waiting.symm⟩, sound.waiting, sound.coherent, fun closed group => ?_, ?_, ?_⟩
  · exact if_pos (sound.closed.mpr closed)
  · intro thread group fault next step
    obtain ⟨refused, rfl⟩ := step.refused
    obtain ⟨_, rfl⟩ := enqueue_error refused
    exact ⟨rfl, rfl⟩
  · rw [dequeue_nothingYet, sound.waiting, List.append_right_eq_self, ← sound.closed,
      Bool.not_eq_true]

/-- A thread and a worker share what another thread offers, and the queue is shut while a group
waits in it. -/
def sharedDay (first second third : TaskGroup) : List Event :=
  [.started 0 0, .accepted 0 first, .handed (.thread 1) first, .accepted 0 second, .closed 1,
    .refused 1 third .queueClosed, .closed 0, .handed (.worker 0) second, .nothing (.worker 0),
      .discarded 0 0]

theorem sharedDay_reached :
    ∃ shop, Reaches Scheduler.pairScheduler.crew (opening ({} : MemoryStore) () 1)
    (sharedDay {} { groupId := some [] } { tasks := Scheduler.pair }) shop := by
  have starts := Reaches.refl.step (.start rfl List.not_mem_nil rfl :
    Step Scheduler.pairScheduler.crew (opening ({} : MemoryStore) () 1) (some (.started 0 0)) _)
  have asks := starts.step (.dequeue rfl : Step _ _ none (Workshop.enter _ 1 _))
  have offers := asks.step (.enqueue rfl rfl : Step _ _ (some (.accepted 0 {})) _)
  have receives := offers.step (.receive rfl rfl : Step _ _ (some (.handed (.thread 1) {})) _)
  have offersMore :=
    receives.step (.enqueue rfl rfl : Step _ _ (some (.accepted 0 { groupId := some [] })) _)
  have shuts := offersMore.step (.shutDown rfl : Step _ _ (some (.closed 1)) _)
  have isRefused := shuts.step
    (.refuse rfl rfl : Step _ _ (some (.refused 1 { tasks := Scheduler.pair } .queueClosed)) _)
  have discards := isRefused.step (.discard rfl List.mem_cons_self : Step _ _ (some (.closed 0)) _)
  have takes := discards.step (.work List.mem_cons_self)
  have works := takes.step (.work List.mem_cons_self)
  have leaves := works.step (.work List.mem_cons_self)
  exact ⟨_, leaves.step (.discarded rfl rfl rfl : Step _ _ (some (.discarded 0 0)) _)⟩

theorem queue_lossless_shared : ∃ shop,
    Reaches Scheduler.pairScheduler.crew (opening ({} : MemoryStore) () 1)
        (sharedDay {} { groupId := some [] } { tasks := Scheduler.pair }) shop ∧
      shop.pool.queue.waiting = [] := by
  obtain ⟨shop, reached⟩ := sharedDay_reached
  have lossless := queue_lossless reached
  exact ⟨shop, reached,
    (List.append_cancel_left (lossless.2.1.symm.trans (List.append_nil _).symm))⟩

end Workshop
end CodeAudit
