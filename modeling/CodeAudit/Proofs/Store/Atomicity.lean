import CodeAudit.Proofs.Store.Trace
import CodeAudit.Proofs.Store.Steps

/-! Transactions are made as a whole or not at all. What they are told is what the data steps of the
committed ones, made in the order of the commits, leave there to be told. -/
namespace CodeAudit

namespace TaskStore

variable {σ τ : Type} [TaskStore σ τ]

def replay [Atomic σ] (steps : List (Fresh × DataStep)) (contents : Contents σ) : Contents σ :=
  steps.foldl (fun contents (fresh, step) => (apply fresh step contents).2) contents

/-- Every answer is the one that the steps committed before and those of the same transaction lead
to. -/
def Trace.Truthful [Atomic σ] (contents : Contents σ) (trace : Trace) : Prop :=
  trace.Each fun earlier event => ∀ i fresh step answer, event = .stepped i fresh step answer →
    answer = (apply fresh step (replay (earlier.committedSteps ++ earlier.steps i) contents)).1

variable [Atomic σ] {contents : Contents σ} {trace : Trace} {handles : List τ}
  {store start after : σ} {handle later : τ} {i : Nat} {event : Event}

theorem replay_append (first second : List (Fresh × DataStep)) :
    replay (first ++ second) contents = replay second (replay first contents) := List.foldl_append

/-- A handle is as far as the events say. -/
structure Fits (σ : Type) {τ : Type} [TaskStore σ τ] [Atomic σ] (trace : Trace) (i : Nat)
    (handle : τ) : Prop where
  committed : .committed i ∈ trace → Atomic.Finished σ true handle
  rolledBack : .rolledBack i ∈ trace → .committed i ∉ trace → Atomic.Finished σ false handle
  uncommitted : .committed i ∉ trace → ∀ store : σ, isCommitted handle store = false

/-- The handles that events are about, each as far as they say. -/
structure Accounted (σ : Type) {τ : Type} [TaskStore σ τ] [Atomic σ] (trace : Trace)
    (handles : List τ) : Prop where
  known : ∀ event ∈ trace, ∀ i, event.handle? = some i → i < handles.length
  fits : ∀ i handle, handles[i]? = some handle → Fits σ trace i handle

/-- Either no transaction is open, and the store holds what has been committed, or just one is, on
top of that. -/
inductive Phase (contents : Contents σ) (trace : Trace) (handles : List τ) (store : σ) : Prop where
  | rest : (∀ i < handles.length, ¬trace.Open i) →
      Rest (replay trace.committedSteps contents) store →
      Phase contents trace handles store
  | busy (i : Nat) (handle : τ) : handles[i]? = some handle → trace.Open i →
      (∀ j < handles.length, trace.Open j → j = i) →
      Atomic.Working (replay trace.committedSteps contents)
          (replay (trace.committedSteps ++ trace.steps i) contents) handle store ∨
        trace.Exhausted i ∧ Atomic.Lost (replay trace.committedSteps contents) handle store →
      Phase contents trace handles store

theorem set_same (found : handles[i]? = some handle) : handles.set i handle = handles := by
  obtain ⟨inside, rfl⟩ := List.getElem?_eq_some_iff.mp found
  exact List.set_getElem_self inside

theorem Fits.finished (fits : Fits σ trace i handle) (finished : trace.Finished i) :
    ∃ committed, Atomic.Finished σ committed handle := by
  by_cases committed : .committed i ∈ trace
  · exact ⟨true, fits.committed committed⟩
  · exact ⟨false, fits.rolledBack (finished.resolve_left committed) committed⟩

theorem Fits.quiet (fits : Fits σ trace i handle) (noCommit : event ≠ .committed i)
    (noRollback : event ≠ .rolledBack i) : Fits σ (trace ++ [event]) i handle := by
  have away {same : Event} (other : event ≠ same) : same ∈ trace ++ [event] ↔ same ∈ trace := by
    rw [List.mem_append, List.mem_singleton, or_iff_left (Ne.symm other)]
  constructor
  · rw [away noCommit]
    exact fits.committed
  · rw [away noCommit, away noRollback]
    exact fits.rolledBack
  · rw [away noCommit]
    exact fits.uncommitted

/-- A rollback returns for a committed handle as well, and leaves it committed. -/
theorem fits_rolledBack (committed : .committed i ∈ trace → Atomic.Finished σ true handle)
    (undone : .committed i ∉ trace → Atomic.Finished σ false handle) :
    Fits σ (trace ++ [.rolledBack i]) i handle := by
  have same : .committed i ∈ trace ++ [.rolledBack i] ↔ .committed i ∈ trace := by simp
  constructor
  · rw [same]
    exact committed
  · rw [same]
    exact fun _ => undone
  · rw [same]
    exact fun away store => Atomic.isCommitted_finished store (undone away)

theorem Accounted.change (accounted : Accounted σ trace handles) (about : event.handle? = some i)
    (inside : i < handles.length) (fits : Fits σ (trace ++ [event]) i later) :
    Accounted σ (trace ++ [event]) (handles.set i later) := by
  constructor
  · intro other member j own
    rw [List.length_set]
    rcases List.mem_append.mp member with earlier | last
    · exact accounted.known other earlier j own
    · obtain rfl := List.mem_singleton.mp last
      rw [about] at own
      exact Option.some.inj own ▸ inside
  · intro j handle found
    rw [List.getElem?_set] at found
    split at found
    next same =>
      subst same
      exact Option.some.inj found ▸ fits
    next different =>
      have other (same : Event) (own : same.handle? = some j) : event ≠ same := by
        rintro rfl
        exact different (Option.some.inj (about.symm.trans own))
      exact (accounted.fits j handle found).quiet (other _ rfl) (other _ rfl)

/-- An event that is about no handle. -/
theorem Accounted.aside (accounted : Accounted σ trace handles) (about : event.handle? = none) :
    Accounted σ (trace ++ [event]) handles := by
  constructor
  · intro other member i own
    rcases List.mem_append.mp member with earlier | last
    · exact accounted.known other earlier i own
    · obtain rfl := List.mem_singleton.mp last
      rw [about] at own
      contradiction
  · intro i handle found
    have other (same : Event) (own : same.handle? = some i) : event ≠ same := by
      rintro rfl
      rw [about] at own
      contradiction
    exact (accounted.fits i handle found).quiet (other _ rfl) (other _ rfl)

/-- A new handle is one that no event has been about. -/
theorem Accounted.add (accounted : Accounted σ trace handles)
    (fresh : ∀ store : σ, isCommitted handle store = false) :
    Accounted σ trace (handles ++ [handle]) := by
  constructor
  · intro event member i own
    rw [List.length_append, List.length_singleton]
    exact Nat.lt_succ_of_lt (accounted.known event member i own)
  · intro i other found
    by_cases old : i < handles.length
    · rw [List.getElem?_append_left old] at found
      exact accounted.fits i other found
    · rw [List.getElem?_append_right (Nat.le_of_not_lt old), List.getElem?_singleton] at found
      split at found
      · obtain rfl := Option.some.inj found
        exact ⟨fun member => absurd (accounted.known _ member i rfl) old,
          fun member _ => absurd (accounted.known _ member i rfl) old, fun _ => fresh⟩
      · contradiction

theorem Phase.rests (phase : Phase contents trace handles store)
    (closed : ∀ i < handles.length, ¬trace.Open i) :
    Rest (replay trace.committedSteps contents) store := by
  cases phase with
  | rest _ rest => exact rest
  | busy i handle found pending _ _ =>
    exact absurd pending (closed i (List.getElem?_eq_some_iff.mp found).1)

/-- Where the one open transaction is. -/
theorem Phase.at_open (phase : Phase contents trace handles store)
    (found : handles[i]? = some handle) (pending : trace.Open i) :
    (∀ j < handles.length, trace.Open j → j = i) ∧
      (Atomic.Working (replay trace.committedSteps contents)
          (replay (trace.committedSteps ++ trace.steps i) contents) handle store ∨
        trace.Exhausted i ∧ Atomic.Lost (replay trace.committedSteps contents) handle store) := by
  have inside := (List.getElem?_eq_some_iff.mp found).1
  cases phase with
  | rest closed _ => exact absurd pending (closed i inside)
  | busy j other there _ only state =>
    obtain rfl := only i inside pending
    obtain rfl := Option.some.inj (found.symm.trans there)
    exact ⟨only, state⟩

/-- An event after which everything is as before. -/
theorem Phase.quiet (phase : Phase contents trace handles store)
    (noSteps : ∀ i, Trace.steps [event] i = []) (noCommits : Trace.commits [event] = [])
    (kept : ∀ i, trace.Open i → event ≠ .committed i ∧ event ≠ .rolledBack i ∧
      event ≠ .released i) :
    Phase contents (trace ++ [event]) handles store := by
  have still (i : Nat) : Trace.Open (trace ++ [event]) i ↔ trace.Open i := by
    rw [Trace.open_concat]
    exact ⟨And.left, fun pending => ⟨pending, kept i pending⟩⟩
  have same : Trace.committedSteps (trace ++ [event]) = trace.committedSteps := by
    rw [Trace.committedSteps_concat (fun i _ => noSteps i), noCommits, List.flatMap_nil,
      List.append_nil]
  have own (i : Nat) : Trace.steps (trace ++ [event]) i = trace.steps i := by
    rw [Trace.steps_concat, noSteps, List.append_nil]
  cases phase with
  | rest closed rest =>
    exact .rest (fun i inside => by rw [still]; exact closed i inside) (same ▸ rest)
  | busy i handle found working only state =>
    refine .busy i handle found ((still i).mpr working)
      (fun j inside => by rw [still]; exact only j inside) ?_
    rw [same, own]
    refine state.imp_right (And.imp_left ?_)
    rintro ⟨fresh, step, answer, member, exhausted⟩
    exact ⟨fresh, step, answer, List.mem_append_left _ member, exhausted⟩

/-- The event with which the one open transaction ends. -/
theorem Phase.close {others : List τ} (phase : Phase contents trace handles store)
    (found : handles[i]? = some handle) (pending : trace.Open i)
    (same : others.length = handles.length)
    (ends : event = .committed i ∨ event = .rolledBack i ∨ event = .released i)
    (rest : Rest (replay (Trace.committedSteps (trace ++ [event])) contents) after) :
    Phase contents (trace ++ [event]) others after := by
  obtain ⟨only, _⟩ := phase.at_open found pending
  refine .rest (fun j inside pending => ?_) rest
  obtain ⟨pending, noCommit, noRollback, noRelease⟩ := Trace.open_concat.mp pending
  obtain rfl := only j (same ▸ inside) pending
  rcases ends with rfl | rfl | rfl
  · exact noCommit rfl
  · exact noRollback rfl
  · exact noRelease rfl

/-- What is not open has been finished, or given back. -/
theorem Trace.finished_of_closed (closed : ¬trace.Open i) (kept : .released i ∉ trace) :
    trace.Finished i :=
  Classical.not_not.mp (fun unfinished => closed ⟨unfinished, kept⟩)

/-- Events other than data steps tell nothing. -/
theorem Trace.Truthful.quiet (truthful : trace.Truthful contents)
    (noStep : ∀ i fresh step answer, event ≠ .stepped i fresh step answer) :
    Trace.Truthful contents (trace ++ [event]) :=
  Trace.each_concat.mpr ⟨truthful, fun i fresh step answer same =>
    absurd same (noStep i fresh step answer)⟩

structure Stands (contents : Contents σ) (trace : Trace) (handles : List τ) (store : σ) : Prop where
  accounted : Accounted σ trace handles
  phase : Phase contents trace handles store
  truthful : trace.Truthful contents

theorem Stands.begun (stands : Stands contents trace handles store)
    (closed : ∀ i < handles.length, ¬trace.Open i) (began : begin store = .ok (handle, after)) :
    Stands contents (trace ++ [.begun]) (handles ++ [handle]) after := by
  obtain ⟨accounted, phase, truthful⟩ := stands
  have working := Atomic.begin_working (phase.rests closed) began
  have unknown (event : Event) (member : event ∈ trace) : event.handle? ≠ some handles.length := by
    intro own
    exact Nat.lt_irrefl _ (accounted.known event member _ own)
  have added : Accounted σ (trace ++ [.begun]) (handles ++ [handle]) :=
    (accounted.aside rfl).add (fun store => Atomic.isCommitted_working store working)
  refine ⟨added, ?_, truthful.quiet (fun _ _ _ _ => nofun)⟩
  have none : Trace.steps (trace ++ [.begun]) handles.length = [] := by
    rw [Trace.steps_concat, Trace.steps_unknown unknown]
    rfl
  have same : Trace.committedSteps (trace ++ [.begun]) = trace.committedSteps := by
    rw [Trace.committedSteps_concat (fun _ _ => rfl)]
    exact List.append_nil _
  refine .busy handles.length handle (List.getElem?_concat_length ..) ?_
    (fun j inside pending => ?_) ?_
  · refine Trace.open_concat.mpr ⟨⟨?_, fun member => unknown _ member rfl⟩, nofun, nofun, nofun⟩
    rintro (member | member) <;> exact unknown _ member rfl
  · have pending := (Trace.open_concat.mp pending).1
    rw [List.length_append, List.length_singleton] at inside
    exact (Nat.lt_succ_iff_lt_or_eq.mp inside).resolve_left (fun old => closed j old pending)
  · rw [none, same, List.append_nil]
    exact .inl working

theorem Stands.notBegun {fault : Fault} (stands : Stands contents trace handles store) :
    Stands contents (trace ++ [.notBegun fault]) handles store :=
  ⟨stands.accounted.aside rfl, stands.phase.quiet (fun _ => rfl) rfl
    (fun _ _ => ⟨nofun, nofun, nofun⟩),
    stands.truthful.quiet (fun _ _ _ _ => nofun)⟩

/-- A call on a handle that changes nothing. -/
theorem Stands.quiet (stands : Stands contents trace handles store)
    (found : handles[i]? = some handle) (about : event.handle? = some i)
    (noSteps : ∀ i, Trace.steps [event] i = []) (noCommits : Trace.commits [event] = [])
    (kept : ∀ i, trace.Open i → event ≠ .committed i ∧ event ≠ .rolledBack i ∧ event ≠ .released i)
    (fits : Fits σ (trace ++ [event]) i handle)
    (noStep : ∀ i fresh step answer, event ≠ .stepped i fresh step answer) :
    Stands contents (trace ++ [event]) (handles.set i handle) store := by
  have inside := (List.getElem?_eq_some_iff.mp found).1
  refine ⟨stands.accounted.change about inside fits, ?_, stands.truthful.quiet noStep⟩
  rw [set_same found]
  exact stands.phase.quiet noSteps noCommits kept

theorem Stands.stepped {fresh : Fresh} {step : DataStep} {answer : DataStep.Answer}
    (stands : Stands contents trace handles store) (found : handles[i]? = some handle)
    (pending : trace.Open i) (unexhausted : ¬trace.Exhausted i)
    (done : perform fresh step handle store = (answer, later, after)) :
    Stands contents (trace ++ [.stepped i fresh step answer]) (handles.set i later) after := by
  obtain ⟨accounted, phase, truthful⟩ := stands
  have inside := (List.getElem?_eq_some_iff.mp found).1
  obtain ⟨only, state⟩ := phase.at_open found pending
  have working := state.resolve_right (fun lost => unexhausted lost.1)
  obtain ⟨told, changed⟩ := Atomic.perform_working working done
  have uncommitted (store : σ) : isCommitted later store = false := by
    rcases changed with working | ⟨_, lost⟩
    · exact Atomic.isCommitted_working store working
    · exact Atomic.isCommitted_lost store lost
  have unfinished : .committed i ∉ trace ∧ .rolledBack i ∉ trace := not_or.mp pending.1
  have fits : Fits σ trace i later :=
    ⟨fun member => absurd member unfinished.1, fun member _ => absurd member unfinished.2, fun _ =>
      uncommitted⟩
  refine ⟨accounted.change rfl inside (fits.quiet nofun nofun), ?_,
    Trace.each_concat.mpr ⟨truthful, ?_⟩⟩
  · have same : Trace.committedSteps (trace ++ [.stepped i fresh step answer]) =
        trace.committedSteps := by
      refine (Trace.committedSteps_concat (fun j member => ?_)).trans (List.append_nil _)
      refine Trace.steps_other ?_ fresh step answer
      rintro rfl
      exact unfinished.1 member
    have replayed : replay (trace.committedSteps ++ (trace.steps i ++ [(fresh, step)])) contents =
        (apply fresh step (replay (trace.committedSteps ++ trace.steps i) contents)).2 := by
      rw [← List.append_assoc, replay_append]
      rfl
    refine .busy i later (List.getElem?_set_self inside) ?_ (fun j bound pending => ?_) ?_
    · exact Trace.open_concat.mpr ⟨pending, nofun, nofun, nofun⟩
    · exact only j (List.length_set ▸ bound) (Trace.open_concat.mp pending).1
    · rw [same, Trace.steps_concat, Trace.steps_own, replayed]
      refine changed.imp_right (And.imp_left (fun exhausted => ?_))
      exact ⟨fresh, step, answer, List.mem_append_right _ List.mem_cons_self, exhausted⟩
  · rintro j other again given ⟨⟩
    exact told

theorem Stands.committed {reply : Reply (τ × σ) (Except Fault Unit)}
    (stands : Stands contents trace handles store) (found : handles[i]? = some handle)
    (kept : .released i ∉ trace) (done : commit handle store = reply)
    (returned : reply.value = .ok ()) :
    Stands contents (trace ++ [.committed i]) (handles.set i reply.state.1) reply.state.2 := by
  obtain ⟨accounted, phase, truthful⟩ := stands
  have inside := (List.getElem?_eq_some_iff.mp found).1
  by_cases pending : trace.Open i
  · obtain ⟨_, working | ⟨_, lost⟩⟩ := phase.at_open found pending
    · obtain ⟨later, after, outcome, finished, rest⟩ := Atomic.commit_working working
      obtain rfl := outcome.symm.trans done
      have fits : Fits σ (trace ++ [.committed i]) i later :=
        ⟨fun _ => finished, fun _ away => absurd (List.mem_append_right _ List.mem_cons_self) away,
          fun away => absurd (List.mem_append_right _ List.mem_cons_self) away⟩
      refine ⟨accounted.change rfl inside fits, ?_, truthful.quiet (fun _ _ _ _ => nofun)⟩
      refine phase.close found pending List.length_set (.inl rfl) ?_
      have steps : Trace.committedSteps (trace ++ [.committed i]) =
          trace.committedSteps ++ trace.steps i := by
        rw [Trace.committedSteps_concat (fun _ _ => rfl)]
        change _ ++ (Trace.steps (trace ++ [.committed i]) i ++ []) = _
        rw [List.append_nil, Trace.steps_concat]
        exact congrArg _ (List.append_nil _)
      rw [steps]
      exact rest
    · obtain ⟨fault, refused⟩ := Atomic.commit_lost lost
      rw [← done, refused] at returned
      contradiction
  · obtain ⟨committed, finished⟩ :=
      (accounted.fits i handle found).finished (Trace.finished_of_closed pending kept)
    obtain ⟨name, refused⟩ := Atomic.commit_finished store finished
    rw [← done, refused] at returned
    contradiction

theorem Stands.notCommitted {reply : Reply (τ × σ) (Except Fault Unit)} {fault : Fault}
    (stands : Stands contents trace handles store) (found : handles[i]? = some handle)
    (kept : .released i ∉ trace) (done : commit handle store = reply)
    (refused : reply.value = .error fault) :
    Stands contents (trace ++ [.notCommitted i fault]) (handles.set i reply.state.1)
      reply.state.2 := by
  have unchanged : reply.state = (handle, store) := by
    by_cases pending : trace.Open i
    · obtain ⟨_, working | ⟨_, lost⟩⟩ := stands.phase.at_open found pending
      · obtain ⟨later, after, outcome, _⟩ := Atomic.commit_working working
        rw [← done, outcome] at refused
        contradiction
      · obtain ⟨fault, outcome⟩ := Atomic.commit_lost lost
        rw [← done, outcome]
    · obtain ⟨committed, finished⟩ :=
        (stands.accounted.fits i handle found).finished (Trace.finished_of_closed pending kept)
      obtain ⟨name, outcome⟩ := Atomic.commit_finished store finished
      rw [← done, outcome]
  rw [unchanged]
  exact stands.quiet found rfl (fun _ => rfl) rfl (fun _ _ => ⟨nofun, nofun, nofun⟩)
    ((stands.accounted.fits i handle found).quiet nofun nofun) (fun _ _ _ _ => nofun)

theorem Stands.rolledBack (stands : Stands contents trace handles store)
    (found : handles[i]? = some handle) (kept : .released i ∉ trace)
    (done : rollback handle store = .ok (later, after)) :
    Stands contents (trace ++ [.rolledBack i]) (handles.set i later) after := by
  have fitting := stands.accounted.fits i handle found
  by_cases pending : trace.Open i
  · obtain ⟨accounted, phase, truthful⟩ := stands
    have inside := (List.getElem?_eq_some_iff.mp found).1
    obtain ⟨_, working | ⟨_, lost⟩⟩ := phase.at_open found pending
    · obtain ⟨undone, restored, outcome, finished, rest⟩ := Atomic.rollback_working working
      obtain ⟨rfl, rfl⟩ := Prod.mk.inj (Except.ok.inj (outcome.symm.trans done))
      have fits : Fits σ (trace ++ [.rolledBack i]) i undone :=
        fits_rolledBack (fun member => absurd (.inl member) pending.1) (fun _ => finished)
      refine ⟨accounted.change rfl inside fits,
        phase.close found pending List.length_set (.inr (.inl rfl)) ?_,
        truthful.quiet (fun _ _ _ _ => nofun)⟩
      rw [Trace.committedSteps_concat (fun _ _ => rfl)]
      exact (List.append_nil _).symm ▸ rest
    · obtain ⟨fault, refused⟩ := Atomic.rollback_lost lost
      rw [refused] at done
      contradiction
  · have ended := Trace.finished_of_closed pending kept
    obtain ⟨committed, finished⟩ := fitting.finished ended
    obtain ⟨rfl, rfl⟩ :=
      Prod.mk.inj (Except.ok.inj ((Atomic.rollback_finished store finished).symm.trans done))
    have fits : Fits σ (trace ++ [.rolledBack i]) i handle :=
      fits_rolledBack fitting.committed
        (fun away => fitting.rolledBack (ended.resolve_left away) away)
    refine stands.quiet found rfl (fun _ => rfl) rfl (fun j still => ⟨nofun, ?_, nofun⟩) fits
      (fun _ _ _ _ => nofun)
    rintro ⟨⟩
    exact pending still

theorem Stands.notRolledBack {fault : Fault} (stands : Stands contents trace handles store)
    (found : handles[i]? = some handle) :
    Stands contents (trace ++ [.notRolledBack i fault]) handles store := by
  have fits : Fits σ (trace ++ [.notRolledBack i fault]) i handle :=
    (stands.accounted.fits i handle found).quiet nofun nofun
  have unchanged : Stands contents (trace ++ [.notRolledBack i fault])
      (handles.set i handle) store :=
    stands.quiet found rfl (fun _ => rfl) rfl (fun _ _ => ⟨nofun, nofun, nofun⟩) fits
      (fun _ _ _ _ => nofun)
  rwa [set_same found] at unchanged

theorem Stands.released (stands : Stands contents trace handles store)
    (found : handles[i]? = some handle) (kept : .released i ∉ trace) :
    Stands contents (trace ++ [.released i]) handles (release handle store).1 := by
  have inside := (List.getElem?_eq_some_iff.mp found).1
  have fits : Fits σ (trace ++ [.released i]) i handle :=
    (stands.accounted.fits i handle found).quiet nofun nofun
  by_cases pending : trace.Open i
  · obtain ⟨accounted, phase, truthful⟩ := stands
    have rest : Rest (replay trace.committedSteps contents) (release handle store).1 := by
      obtain ⟨_, working | ⟨_, lost⟩⟩ := phase.at_open found pending
      · exact Atomic.release_working working
      · rw [Atomic.release_lost lost]
        exact Atomic.lost_rest lost
    have accounted := accounted.change rfl inside fits
    rw [set_same found] at accounted
    refine ⟨accounted, phase.close found pending rfl (.inr (.inr rfl)) ?_,
      truthful.quiet (fun _ _ _ _ => nofun)⟩
    rw [Trace.committedSteps_concat (fun _ _ => rfl)]
    exact (List.append_nil _).symm ▸ rest
  · have ended := Trace.finished_of_closed pending kept
    obtain ⟨committed, finished⟩ := (stands.accounted.fits i handle found).finished ended
    rw [Atomic.release_finished store finished]
    have others (j : Nat) (still : trace.Open j) : Event.released i ≠ .released j := by
      rintro ⟨⟩
      exact pending still
    have unchanged : Stands contents (trace ++ [.released i]) (handles.set i handle) store :=
      stands.quiet found rfl (fun _ => rfl) rfl (fun j still => ⟨nofun, nofun, others j still⟩) fits
        (fun _ _ _ _ => nofun)
    rwa [set_same found] at unchanged

/-- Whatever is asked of a store at rest, as long as nobody goes on where ids have run out. -/
theorem Transacts.stands (rest : Rest contents start)
    (transacts : Transacts start trace handles store) (heeds : trace.Heeds) :
    Stands contents trace handles store := by
  induction transacts with
  | start =>
    refine ⟨⟨fun event member => absurd member List.not_mem_nil, fun i handle found => ?_⟩,
      .rest (fun i inside => absurd inside (Nat.not_lt_zero i)) rest,
        fun earlier event later same => ?_⟩
    · rw [List.getElem?_nil] at found
      contradiction
    · simp at same
  | begun _ closed began ih => exact (ih (Trace.each_concat.mp heeds).1).begun closed began
  | notBegun _ _ _ ih => exact (ih (Trace.each_concat.mp heeds).1).notBegun
  | stepped _ found pending done ih =>
    obtain ⟨heeds, unexhausted⟩ := Trace.each_concat.mp heeds
    exact (ih heeds).stepped found pending (unexhausted _ _ _ _ rfl) done
  | committed _ found kept done returned ih =>
    exact (ih (Trace.each_concat.mp heeds).1).committed found kept done returned
  | notCommitted _ found kept done refused ih =>
    exact (ih (Trace.each_concat.mp heeds).1).notCommitted found kept done refused
  | rolledBack _ found kept done ih =>
    exact (ih (Trace.each_concat.mp heeds).1).rolledBack found kept done
  | notRolledBack _ found _ _ ih => exact (ih (Trace.each_concat.mp heeds).1).notRolledBack found
  | released _ found kept ih => exact (ih (Trace.each_concat.mp heeds).1).released found kept

end TaskStore

open TaskStore

namespace Backend

instance (backend : Backend) : Atomic backend.Store :=
  match backend with
  | memory => inferInstanceAs (Atomic MemoryStore)
  | table => inferInstanceAs (Atomic TableStore)

/-- Ids run out in the table only. -/
theorem memory_heeds {start store : MemoryStore} {trace : Trace} {handles : List MemoryStore.Handle}
    (transacts : Transacts start trace handles store) : trace.Heeds := by
  refine Trace.heeds_of_unexhausted (fun i fresh step answer member exhausted => ?_)
  obtain ⟨handle, store, rfl⟩ := transacts.asked member
  rw [MemoryStore.perform_eq] at exhausted
  exact MemoryStore.not_exhausted fresh step handle.contents exhausted

/-- Whatever transactions are made on a store at rest, one at a time, every answer is the one that
the data steps committed before and those of the same transaction lead to, and what is left in the
end is what the committed ones lead to. Nobody may go on with a transaction on the table in which
ids have run out, as it has been rolled back by then. -/
theorem transactions_atomic (backend : Backend) {contents : Contents backend.Store}
    {start store : backend.Store} {trace : Trace} {handles : List backend.Handle}
    (rest : Rest contents start) (transacts : Transacts start trace handles store)
    (heeds : backend = .table → trace.Heeds) :
    trace.Truthful contents ∧
    ((∀ i < handles.length, ¬trace.Open i) → Rest (replay trace.committedSteps contents) store) ∧
    ∀ i handle, handles[i]? = some handle →
      (isCommitted handle store = true ↔ .committed i ∈ trace) ∧
      (trace.Finished i →
        (∃ name, commit handle store =
          { value := .error (.transactionFinished name), state := (handle, store) }) ∧
        rollback handle store = .ok (handle, store)) ∧
      (trace.Open i → ¬trace.Exhausted i → (commit handle store).value = .ok ()) := by
  have heeded : trace.Heeds := by
    cases backend with
    | memory => exact memory_heeds transacts
    | table => exact heeds rfl
  obtain ⟨accounted, phase, truthful⟩ := transacts.stands rest heeded
  refine ⟨truthful, phase.rests, fun i handle found => ?_⟩
  have fits := accounted.fits i handle found
  refine ⟨⟨fun committed => ?_, fun member => ?_⟩, fun ended => ?_, fun pending unexhausted => ?_⟩
  · refine Classical.byContradiction (fun away => ?_)
    rw [fits.uncommitted away store] at committed
    contradiction
  · exact Atomic.isCommitted_finished store (fits.committed member)
  · obtain ⟨committed, finished⟩ := fits.finished ended
    exact ⟨Atomic.commit_finished store finished, Atomic.rollback_finished store finished⟩
  · obtain ⟨_, working | ⟨exhausted, _⟩⟩ := phase.at_open found pending
    · obtain ⟨_, _, done, _⟩ := Atomic.commit_working working
      rw [done]
    · exact absurd exhausted unexhausted

def draft (id : UInt64) (uuid : String) : Task := { id, uuid := utf8 uuid, createdAt := 1 }

/-- A transaction is given back with what it has inserted, and the next one gets the same id
again. -/
theorem transactions_atomic_dropped :
    let inserts (handle : Nat) (uuid : String) : TaskStore.Event :=
      .stepped handle ⟨[], 1⟩ (.insert (draft 0 uuid)) (.inserted ⟨.ok (), draft 1 uuid⟩)
    let trace : Trace := [.begun, inserts 0 "a", .released 0, .begun, inserts 1 "b", .committed 1]
    (∃ handles store, Transacts (empty .table) trace handles store) ∧
      Trace.Truthful (σ := Store .table) (empty .table) trace := by
  intro inserts trace
  have begun : Transacts (empty .table) (trace.take 1) [({} : Connection.Handle)]
      ({ contents := some {}, restore := some (some {}) } : TableStore) :=
        .begun .start (by simp) rfl
  have inserted : Transacts (empty .table) (trace.take 2) [({} : Connection.Handle)]
      ({ contents := some { rows := [draft 1 "a"], sequence := 1 },
         restore := some (some {}) } : TableStore) :=
    begun.stepped rfl (by simp [Trace.Open, Trace.Finished, trace]) rfl
  have released : Transacts (empty .table) (trace.take 3) [({} : Connection.Handle)]
      ({ contents := some {} } : TableStore) :=
        inserted.released (i := 0) rfl (by simp [trace, inserts])
  have again : Transacts (empty .table) (trace.take 4) [({} : Connection.Handle), {}]
      ({ contents := some {}, restore := some (some {}) } : TableStore) :=
    released.begun (by simp [Trace.Open, trace]) rfl
  have later : Transacts (empty .table) (trace.take 5) [({} : Connection.Handle), {}]
      ({ contents := some { rows := [draft 1 "b"], sequence := 1 },
         restore := some (some {}) } : TableStore) :=
    again.stepped rfl (by simp [Trace.Open, Trace.Finished, trace, inserts]) rfl
  have ended : Transacts (empty .table) trace [({} : Connection.Handle), { stage := .committed }]
      ({ contents := some { rows := [draft 1 "b"], sequence := 1 } } : TableStore) :=
    later.committed (i := 1) rfl (by simp [trace, inserts]) rfl rfl
  refine ⟨⟨_, _, ended⟩, (transactions_atomic .table ⟨rfl, rfl⟩ ended (fun _ => ?_)).1⟩
  refine Trace.heeds_of_unexhausted (fun i fresh step answer member => ?_)
  simp only [trace, inserts, List.mem_cons, List.not_mem_nil, reduceCtorEq,
    TaskStore.Event.stepped.injEq, or_false,
    false_or] at member
  rcases member with ⟨_, _, _, rfl⟩ | ⟨_, _, _, rfl⟩
  all_goals
    rintro ⟨task, same⟩
    cases same

/-- When ids have run out the transaction is gone, and what is still inserted through its handle is
there to stay. -/
theorem exhausted_transaction_leaks :
    let inserts (task : Task) (status : Except StoreError Unit) : TaskStore.Event :=
      .stepped 0 ⟨[], 1⟩ (.insert task) (.inserted ⟨status, task⟩)
    let trace : Trace :=
      [.begun, inserts (draft 9223372036854775807 "a") (.ok ()),
        inserts (draft 0 "b") (.error (.engine .full)),
        inserts (draft 5 "c") (.ok ()), .released 0, .begun,
          .stepped 1 ⟨[], 1⟩ (.find 5) (.found (some (draft 5 "c")))]
    (∃ handles store, Transacts (empty .table) trace handles store) ∧ trace.commits = [] ∧
      ¬Trace.Truthful (σ := Store .table) (empty .table) trace := by
  intro inserts trace
  have begun : Transacts (empty .table) (trace.take 1) [({} : Connection.Handle)]
      ({ contents := some {}, restore := some (some {}) } : TableStore) :=
        .begun .start (by simp) rfl
  have last : Transacts (empty .table) (trace.take 2) [({} : Connection.Handle)]
      ({ contents := some { rows := [draft 9223372036854775807 "a"],
                            sequence := 9223372036854775807 },
         restore := some (some {}) } : TableStore) :=
    begun.stepped rfl (by simp [Trace.Open, Trace.Finished, trace]) rfl
  have full : Transacts (empty .table) (trace.take 3) [({} : Connection.Handle)]
      ({ contents := some {} } : TableStore) :=
    last.stepped rfl (by simp [Trace.Open, Trace.Finished, trace, inserts]) rfl
  have loose : Transacts (empty .table) (trace.take 4) [({} : Connection.Handle)]
      ({ contents := some { rows := [draft 5 "c"], sequence := 5 } } : TableStore) :=
    full.stepped rfl (by simp [Trace.Open, Trace.Finished, trace, inserts]) rfl
  have released : Transacts (empty .table) (trace.take 5) [({} : Connection.Handle)]
      ({ contents := some { rows := [draft 5 "c"], sequence := 5 } } : TableStore) :=
    loose.released (i := 0) rfl (by simp [trace, inserts])
  have again : Transacts (empty .table) (trace.take 6) [({} : Connection.Handle), {}]
      ({ contents := some { rows := [draft 5 "c"], sequence := 5 }
         restore := some (some { rows := [draft 5 "c"], sequence := 5 }) } : TableStore) :=
    released.begun (by simp [Trace.Open, trace]) rfl
  have found : Transacts (empty .table) trace [({} : Connection.Handle), {}]
      ({ contents := some { rows := [draft 5 "c"], sequence := 5 }
         restore := some (some { rows := [draft 5 "c"], sequence := 5 }) } : TableStore) :=
    again.stepped rfl (by simp [Trace.Open, Trace.Finished, trace, inserts]) rfl
  refine ⟨⟨_, _, found⟩, rfl, fun truthful => ?_⟩
  have told := truthful (trace.take 6) _ [] rfl 1 ⟨[], 1⟩ (.find 5) _ rfl
  cases told

end Backend
end CodeAudit
