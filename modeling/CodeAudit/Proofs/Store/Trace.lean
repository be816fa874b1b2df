import CodeAudit.Proofs.Store.DataSteps
import Mathlib.Data.List.Basic

/-! What is asked of a store and of the handles it gives out, as a trace of events. One transaction
at a time is open, and what has been committed can be read off the events. -/
namespace CodeAudit

namespace TaskStore

/-- What has been asked of a store or of a handle, and how that ended. Handles are numbered as they
are given out. -/
inductive Event where
  | begun
  | notBegun (fault : Fault)
  | stepped (handle : Nat) (fresh : Fresh) (step : DataStep) (answer : DataStep.Answer)
  | committed (handle : Nat)
  | notCommitted (handle : Nat) (fault : Fault)
  | rolledBack (handle : Nat)
  | notRolledBack (handle : Nat) (fault : Fault)
  | released (handle : Nat)

def Event.handle? : Event → Option Nat
  | begun | notBegun _ => none
  | stepped i _ _ _ | committed i | notCommitted i _ | rolledBack i | notRolledBack i _ | released
      i => some i

abbrev Trace := List Event

namespace Trace

/-- A commit or a rollback has returned. -/
def Finished (trace : Trace) (i : Nat) : Prop := .committed i ∈ trace ∨ .rolledBack i ∈ trace

def Open (trace : Trace) (i : Nat) : Prop := ¬trace.Finished i ∧ .released i ∉ trace

/-- An insertion through the handle was refused because no id is left. -/
def Exhausted (trace : Trace) (i : Nat) : Prop :=
  ∃ fresh step answer, .stepped i fresh step answer ∈ trace ∧ answer.Exhausted

def steps (trace : Trace) (i : Nat) : List (Fresh × DataStep) :=
  trace.filterMap fun
    | .stepped j fresh step _ => if j = i then some (fresh, step) else none
    | _ => none

/-- The handles whose commit has returned, in that order. -/
def commits (trace : Trace) : List Nat :=
  trace.filterMap fun
    | .committed i => some i
    | _ => none

def committedSteps (trace : Trace) : List (Fresh × DataStep) := trace.commits.flatMap trace.steps

/-- Every event is as expected after those before it. -/
def Each (expected : Trace → Event → Prop) (trace : Trace) : Prop :=
  ∀ earlier event later, trace = earlier ++ event :: later → expected earlier event

/-- Nobody goes on with a transaction in which ids have run out. -/
def Heeds (trace : Trace) : Prop :=
  trace.Each fun earlier event => ∀ i fresh step answer, event = .stepped i fresh step answer →
    ¬earlier.Exhausted i

end Trace

variable {σ τ : Type} [TaskStore σ τ]

/-- What calls make of a store and of the handles it has given out. A transaction begins only when
no other is open, and data steps are made only while it is. -/
inductive Transacts (start : σ) : Trace → List τ → σ → Prop where
  | start : Transacts start [] [] start
  | begun : Transacts start trace handles store → (∀ i < handles.length, ¬trace.Open i) →
      begin store = .ok (handle, after) →
        Transacts start (trace ++ [.begun]) (handles ++ [handle]) after
  | notBegun : Transacts start trace handles store → (∀ i < handles.length, ¬trace.Open i) →
      begin store = .error fault → Transacts start (trace ++ [.notBegun fault]) handles store
  | stepped : Transacts start trace handles store → handles[i]? = some handle → trace.Open i →
      perform fresh step handle store = (answer, later, after) →
      Transacts start (trace ++ [.stepped i fresh step answer]) (handles.set i later) after
  | committed : Transacts start trace handles store → handles[i]? = some handle →
      .released i ∉ trace →
      commit handle store = reply → reply.value = .ok () →
      Transacts start (trace ++ [.committed i]) (handles.set i reply.state.1) reply.state.2
  | notCommitted : Transacts start trace handles store → handles[i]? = some handle →
      .released i ∉ trace →
      commit handle store = reply → reply.value = .error fault →
      Transacts start (trace ++ [.notCommitted i fault]) (handles.set i reply.state.1) reply.state.2
  | rolledBack : Transacts start trace handles store → handles[i]? = some handle →
      .released i ∉ trace →
      rollback handle store = .ok (later, after) →
      Transacts start (trace ++ [.rolledBack i]) (handles.set i later) after
  | notRolledBack : Transacts start trace handles store → handles[i]? = some handle →
      .released i ∉ trace →
      rollback handle store = .error fault →
        Transacts start (trace ++ [.notRolledBack i fault]) handles store
  | released : Transacts start trace handles store → handles[i]? = some handle →
      .released i ∉ trace →
      Transacts start (trace ++ [.released i]) handles (release handle store).1

namespace Trace
variable {trace : Trace} {event : Event} {i : Nat} {expected : Trace → Event → Prop}

theorem each_concat : (trace ++ [event]).Each expected ↔
    trace.Each expected ∧ expected trace event := by
  constructor
  · intro all
    refine ⟨fun earlier other later same => ?_, all trace event [] rfl⟩
    exact all earlier other (later ++ [event]) (by simp [same])
  · rintro ⟨all, last⟩ earlier other later same
    rcases List.eq_nil_or_concat later with rfl | ⟨before, final, rfl⟩
    · obtain ⟨rfl, rfl⟩ := by simpa using same
      exact last
    · rw [List.concat_eq_append, ← List.cons_append, ← List.append_assoc] at same
      exact all earlier other before (List.append_inj' same rfl).1

theorem finished_concat : Finished (trace ++ [event]) i ↔
    trace.Finished i ∨ event = .committed i ∨ event = .rolledBack i := by
  simp only [Finished, List.mem_append, List.mem_singleton, eq_comm (a := event)]
  exact or_or_or_comm

theorem open_concat : Open (trace ++ [event]) i ↔
    trace.Open i ∧ event ≠ .committed i ∧ event ≠ .rolledBack i ∧ event ≠ .released i := by
  simp only [Open, finished_concat, List.mem_append, List.mem_singleton, not_or,
    eq_comm (a := event), ne_eq]
  constructor
  · rintro ⟨⟨unfinished, noCommit, noRollback⟩, kept, noRelease⟩
    exact ⟨⟨unfinished, kept⟩, noCommit, noRollback, noRelease⟩
  · rintro ⟨⟨unfinished, kept⟩, noCommit, noRollback, noRelease⟩
    exact ⟨⟨unfinished, noCommit, noRollback⟩, kept, noRelease⟩

theorem steps_concat : steps (trace ++ [event]) i = trace.steps i ++ steps [event] i :=
  List.filterMap_append

theorem steps_own (fresh : Fresh) (step : DataStep) (answer : DataStep.Answer) :
    steps [.stepped i fresh step answer] i = [(fresh, step)] := by simp [steps]

theorem steps_other {j : Nat} (different : i ≠ j) (fresh : Fresh) (step : DataStep)
    (answer : DataStep.Answer) :
    steps [.stepped i fresh step answer] j = [] := by simp [steps, different]

theorem mem_commits : i ∈ trace.commits ↔ .committed i ∈ trace := by
  simp only [commits, List.mem_filterMap]
  constructor
  · rintro ⟨event, member, same⟩
    split at same
    · obtain rfl := Option.some.inj same
      exact member
    · contradiction
  · exact fun member => ⟨_, member, rfl⟩

/-- Nothing has been made through a handle that no event is about. -/
theorem steps_unknown (unknown : ∀ event ∈ trace, event.handle? ≠ some i) : trace.steps i = [] := by
  refine List.filterMap_eq_nil_iff.mpr (fun event member => ?_)
  split
  next j fresh step answer =>
    have other : j ≠ i := fun same => unknown _ member (congrArg some same)
    exact if_neg other
  · rfl

/-- Nothing is added to what has been committed but by another commit. -/
theorem committedSteps_concat (closed : ∀ i, .committed i ∈ trace → steps [event] i = []) :
    committedSteps (trace ++ [event]) =
      trace.committedSteps ++ (commits [event]).flatMap (steps (trace ++ [event])) := by
  have split : commits (trace ++ [event]) = trace.commits ++ commits [event] :=
    List.filterMap_append
  rw [committedSteps, split, List.flatMap_append, committedSteps]
  congr 1
  refine List.flatMap_congr (fun i member => ?_)
  rw [steps_concat, closed i (mem_commits.mp member), List.append_nil]

end Trace

variable {start store : σ} {trace : Trace} {handles : List τ} {i : Nat}

/-- Every answer has been given by a store to a handle. -/
theorem Transacts.asked {fresh : Fresh} {step : DataStep} {answer : DataStep.Answer}
    (transacts : Transacts start trace handles store)
    (member : .stepped i fresh step answer ∈ trace) :
    ∃ (handle : τ) (store : σ), answer = (perform fresh step handle store).1 := by
  induction transacts with
  | start => exact absurd member List.not_mem_nil
  | stepped _ _ _ done ih =>
    rcases List.mem_append.mp member with earlier | last
    · exact ih earlier
    · cases List.mem_singleton.mp last
      exact ⟨_, _, (congrArg Prod.fst done).symm⟩
  | begun | notBegun | committed | notCommitted | rolledBack | notRolledBack | released =>
    rename_i ih
    rcases List.mem_append.mp member with earlier | last
    · exact ih earlier
    · cases List.mem_singleton.mp last

/-- There is nothing to heed as long as ids last. -/
theorem Trace.heeds_of_unexhausted
    (lasting : ∀ i fresh step answer, .stepped i fresh step answer ∈ trace → ¬answer.Exhausted) :
    trace.Heeds := by
  rintro earlier _ later same i _ _ _ rfl ⟨fresh, step, answer, member, exhausted⟩
  exact lasting i fresh step answer (same ▸ List.mem_append_left _ member) exhausted

end TaskStore
end CodeAudit
