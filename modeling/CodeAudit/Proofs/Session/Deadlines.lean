import CodeAudit.Proofs.Scheduler.Foresight
import CodeAudit.Proofs.Session.Composition
import CodeAudit.Proofs.Settings.Scalars
import Mathlib.Algebra.Group.Int.Defs

/-! What a configured time limit becomes. Checks and conversions count nanoseconds in 64 bits, so a
length of time is judged and kept as meant exactly if its nanoseconds fit there; what is less than a
millisecond is dropped after the check, so only a millisecond or more makes a deadline. -/
namespace CodeAudit

namespace Duration
variable {d : Duration}

def length (d : Duration) : Int := d.seconds.toInt * 10 ^ 9 + d.nanos.toInt

def counted (d : Duration) : Int := d.length.bmod (2 ^ 64)

def Fits (d : Duration) : Prop := -2 ^ 63 ≤ d.length ∧ d.length < 2 ^ 63

instance : Decidable d.Fits := inferInstanceAs (Decidable (_ ∧ _))

theorem nanoseconds_toInt : d.nanoseconds.toInt = d.counted := by
  have unit : nanosPerSecond.toInt = 10 ^ 9 := by decide
  rw [nanoseconds, Int64.toInt_add, Int64.toInt_mul, Int32.toInt_toInt64, unit, Int.bmod_add_bmod,
    counted, length]

theorem milliseconds_toInt : d.milliseconds.toInt = d.counted.tdiv (10 ^ 6) := by
  rw [milliseconds, Int64.toInt_div_of_ne_right _ _ (by decide), nanoseconds_toInt]
  rfl

theorem counted_range : -2 ^ 63 ≤ d.counted ∧ d.counted < 2 ^ 63 :=
  ⟨Int.le_bmod (by decide), Int.bmod_lt (by decide)⟩

/-- Counting goes wrong by whole turns of 64 bits. -/
theorem counted_turns : ∃ turns, d.counted = d.length + 2 ^ 64 * turns := by
  obtain ⟨turns, apart⟩ := Int.dvd_bmod_sub_self (x := d.length) (m := 2 ^ 64)
  refine ⟨turns, ?_⟩
  rw [counted]
  omega

theorem counted_eq_iff : d.counted = d.length ↔ d.Fits := by
  have range := d.counted_range
  obtain ⟨turns, apart⟩ := d.counted_turns
  simp only [Fits]
  omega

/-- Lengths that are the same in whole milliseconds are less than two milliseconds apart. -/
theorem near_of_tdiv_eq {m n : Int} (same : m.tdiv (10 ^ 6) = n.tdiv (10 ^ 6)) :
    (m - n).natAbs < 2 * 10 ^ 6 := by
  have rest (k : Int) : (k.tmod (10 ^ 6)).natAbs < 10 ^ 6 := by
    rw [Int.natAbs_tmod]
    exact Nat.mod_lt _ (by decide)
  have first := rest m
  have second := rest n
  have left := Int.mul_tdiv_add_tmod m (10 ^ 6)
  have right := Int.mul_tdiv_add_tmod n (10 ^ 6)
  rw [same] at left
  omega

/-- The milliseconds are those of the length itself exactly if it fits. -/
theorem tdiv_counted_iff : d.counted.tdiv (10 ^ 6) = d.length.tdiv (10 ^ 6) ↔ d.Fits := by
  rw [← counted_eq_iff]
  constructor
  · intro same
    have near := near_of_tdiv_eq same
    obtain ⟨turns, apart⟩ := d.counted_turns
    omega
  · exact congrArg (Int.tdiv · (10 ^ 6))

end Duration

/-! ### How long calls may take -/

def CallSpan.Lasts (milliseconds : Int) : CallSpan → Prop
  | .after taken => milliseconds ≤ taken
  | .untilCancelled => True

namespace Crew
variable {ε : Type} {crew : Crew ε}

/-- The answer of the call is dropped, and its task put back. -/
def GivesUpOn (crew : Crew ε) (call : Call) : Prop := GroupRun.isLate crew.limit call.span = true

/-- There is no deadline: whatever a call answers is taken, however long it takes. -/
def Unlimited (crew : Crew ε) : Prop := ∀ call, ¬crew.GivesUpOn call

/-- Calls are given up at a deadline and not before. -/
def Limited (crew : Crew ε) (milliseconds : Int) : Prop :=
  ∀ call, crew.GivesUpOn call ↔ call.span.Lasts milliseconds

theorem limited (positive : 0 < crew.limit) : crew.Limited crew.limit := by
  intro call
  simp only [GivesUpOn, GroupRun.isLate]
  cases call.span with
  | after taken => simp [CallSpan.Lasts, positive]
  | untilCancelled => simp [CallSpan.Lasts, positive]

theorem unlimited_iff : crew.Unlimited ↔ crew.limit ≤ 0 := by
  constructor
  · intro unlimited
    by_contra positive
    exact unlimited { span := .untilCancelled, answer := .ok [] }
      ((limited (Int.not_le.mp positive) _).mpr trivial)
  · intro none call late
    rw [GivesUpOn, GroupRun.isLate_unlimited none] at late
    contradiction

end Crew

namespace Settings
variable {s : Settings}

/-- The configured limit; none set is one of no length. -/
def timeLimit (s : Settings) : Duration := s.scheduler.taskTimeout.getD {}

/-- The time limit is looked at after the tree depth and the workers. -/
theorem validate_negative_iff : s.validate = .error (.settings .negativeTimeout) ↔
    1 ≤ s.analysis.maxTreeDepth ∧ 1 ≤ s.scheduler.workers ∧ s.timeLimit.counted < 0 := by
  have negative : s.timeLimit.nanoseconds < 0 ↔ s.timeLimit.counted < 0 := by
    rw [Int64.lt_iff_toInt_lt, Duration.nanoseconds_toInt]
    rfl
  rw [← negative, ← UInt32.not_lt, ← UInt32.not_lt, timeLimit, validate, flaw?]
  by_cases shallow : s.analysis.maxTreeDepth < 1
  · simp [shallow]
  by_cases unmanned : s.scheduler.workers < 1
  · simp [shallow, unmanned]
  by_cases past : (s.scheduler.taskTimeout.getD {}).nanoseconds < 0
  · simp [shallow, unmanned, past]
  · rw [if_neg shallow, if_neg unmanned, if_neg past]
    refine iff_of_false ?_ (fun negative => past negative.2.2)
    rcases s.database with _ | _ | ⟨_ | _, _⟩ <;> simp

theorem timeLimit_counted : 0 ≤ s.timeLimit.nanoseconds ↔ 0 ≤ s.timeLimit.counted := by
  rw [Int64.le_iff_toInt_le, Duration.nanoseconds_toInt]
  rfl

/-- The limit of a scheduler is the configured one in whole milliseconds, as it is counted. -/
theorem schedulerBy_limit {ε : Type} (client : Client ε) :
    (s.schedulerBy client).crew.limit = s.timeLimit.counted.tdiv (10 ^ 6) :=
  Duration.milliseconds_toInt

/-- Where the configured limit fits in 64 bits of nanoseconds, settings are refused on its account
exactly if it is negative. Accepted settings make a scheduler with exactly that many whole
milliseconds, exactly if it fits. Beyond that its count decides. -/
theorem time_limit_exact (s : Settings) :
    (s.timeLimit.Fits → (s.validate = .error (.settings .negativeTimeout) ↔
      1 ≤ s.analysis.maxTreeDepth ∧ 1 ≤ s.scheduler.workers ∧ s.timeLimit.length < 0)) ∧
    (s.validate = .ok () → ∀ {σ τ ε : Type} [TaskStore σ τ] (store : σ) (client : Client ε),
      ∃ scheduler, (s.composeScheduler (some store) (some client)).1 = .ok (store, scheduler) ∧
        scheduler.crew.limit = s.timeLimit.counted.tdiv (10 ^ 6) ∧
        (scheduler.crew.limit = s.timeLimit.length.tdiv (10 ^ 6) ↔ s.timeLimit.Fits)) ∧
    (s.validate = .error (.settings .negativeTimeout) ↔
      1 ≤ s.analysis.maxTreeDepth ∧ 1 ≤ s.scheduler.workers ∧ s.timeLimit.counted < 0) := by
  refine ⟨fun fits => ?_, fun accepted σ τ ε _ store client => ?_, validate_negative_iff⟩
  · rw [validate_negative_iff, Duration.counted_eq_iff.mpr fits]
  · have limit := s.schedulerBy_limit client
    exact ⟨s.schedulerBy client, composeScheduler_eq (validate_eq_ok_iff.mp accepted) store
      client, limit,
      limit ▸ Duration.tdiv_counted_iff⟩

/-- Settings with a time limit and nothing else that is not a default. -/
def limitedTo (d : Duration) : Settings := withDefaults { scheduler := { taskTimeout := some d } }

theorem limitedTo_accepted {d : Duration} (counts : 0 ≤ d.counted) :
    (limitedTo d).validate = .ok () := by
  have depth : 1 ≤ defaultTreeDepth := by decide
  have workers : 1 ≤ defaultWorkers := by decide
  exact validate_eq_ok_iff.mpr ⟨depth, workers, timeLimit_counted.mpr counts, fun _ => nofun⟩

/-- The longest time that fits, and the least below zero. -/
theorem time_limit_exact_ends :
    let longest : Duration := { seconds := 9223372036, nanos := 854775807 }
    let negative : Duration := { nanos := -1 }
    let client : Client Nat := fun _ asked => (.immediate (.ok []), asked + 1)
    longest.Fits ∧ (limitedTo longest).validate = .ok () ∧ (∃ scheduler,
      ((limitedTo longest).composeScheduler (some ({} : MemoryStore)) (some client)).1 =
        .ok ({}, scheduler) ∧
        scheduler.crew.limit = 9223372036854) ∧
      negative.Fits ∧ (limitedTo negative).validate = .error (.settings .negativeTimeout) := by
  intro longest negative client
  have fits : (limitedTo longest).timeLimit.Fits := by decide
  have accepted : (limitedTo longest).validate = .ok () := limitedTo_accepted (by decide)
  obtain ⟨-, built, -⟩ := time_limit_exact (limitedTo longest)
  obtain ⟨scheduler, made, -, exactly⟩ := built accepted ({} : MemoryStore) client
  have below : (limitedTo negative).timeLimit.Fits := by decide
  have refused := ((time_limit_exact (limitedTo negative)).1 below).mpr
    ⟨by decide, by decide, by decide⟩
  exact ⟨fits, accepted, ⟨scheduler, made, (exactly.mpr fits).trans (by decide)⟩, below, refused⟩

/-- Of two positive lengths of time in range one is refused as negative, and the other, of more than
five hundred years, makes a limit of 290 milliseconds. -/
theorem overlong_limits_misread :
    let refused : Duration := { seconds := 9223372037 }
    let shortened : Duration := { seconds := 18446744074 }
    (InRange refused ∧ 0 < refused.length ∧
      (limitedTo refused).validate = .error (.settings .negativeTimeout)) ∧
    InRange shortened ∧ shortened.length.tdiv (10 ^ 6) = 18446744074000 ∧
      (limitedTo shortened).validate = .ok () ∧
      ∀ {ε : Type} (client : Client ε), ∃ scheduler,
        ((limitedTo shortened).composeScheduler (some ({} : MemoryStore)) (some client)).1 =
          .ok ({}, scheduler) ∧
          scheduler.crew.limit = 290 := by
  intro refused shortened
  have accepted : (limitedTo shortened).validate = .ok () := limitedTo_accepted (by decide)
  have negative : (limitedTo refused).validate = .error (.settings .negativeTimeout) :=
    validate_negative_iff.mpr ⟨by decide, by decide, by decide⟩
  refine ⟨⟨⟨by decide, by decide, by decide⟩, by decide, negative⟩,
    ⟨by decide, by decide, by decide⟩, by decide,
    accepted, fun client => ?_⟩
  exact ⟨_, composeScheduler_eq (validate_eq_ok_iff.mp accepted) _ client,
    (schedulerBy_limit client).trans (by decide)⟩

/-- Accepted settings make a scheduler that has a deadline exactly if their limit counts a
millisecond or more. So nothing but a limit of no length goes without one, exactly where the limit
has no length or counts that much. -/
theorem deadlines_from_milliseconds {σ τ ε : Type} [TaskStore σ τ] (accepted : s.validate = .ok ())
    (below : s.timeLimit.length < 2 ^ 63) (store : σ) (client : Client ε) :
    ∃ scheduler, (s.composeScheduler (some store) (some client)).1 = .ok (store, scheduler) ∧
      (s.timeLimit.counted < 10 ^ 6 → scheduler.crew.Unlimited) ∧
      (10 ^ 6 ≤ s.timeLimit.counted → scheduler.crew.Limited (s.timeLimit.counted / 10 ^ 6)) ∧
      (s.timeLimit.length = 0 ∨ 10 ^ 6 ≤ s.timeLimit.counted ↔
        (scheduler.crew.Unlimited ↔ s.timeLimit.length = 0)) ∧
      (0 ≤ s.timeLimit.length → s.timeLimit.counted = s.timeLimit.length) := by
  have workable := validate_eq_ok_iff.mp accepted
  have counts := timeLimit_counted.mp workable.timeout
  have limit : (s.schedulerBy client).crew.limit = s.timeLimit.counted / 10 ^ 6 := by
    rw [schedulerBy_limit, Int.tdiv_eq_ediv_of_nonneg counts]
  have unlimited : (s.schedulerBy client).crew.Unlimited ↔ s.timeLimit.counted < 10 ^ 6 := by
    rw [Crew.unlimited_iff, limit]
    omega
  have nothing : s.timeLimit.length = 0 → s.timeLimit.counted = 0 := by
    intro empty
    rw [Duration.counted, empty]
    rfl
  refine ⟨_, composeScheduler_eq workable store client, unlimited.mpr, fun long => ?_, ?_,
    fun positive => ?_⟩
  · exact limit ▸ Crew.limited (by omega)
  · rw [unlimited]
    omega
  · exact Duration.counted_eq_iff.mpr ⟨by omega, below⟩

/-- The shortest deadline there is. -/
theorem deadlines_from_milliseconds_one :
    let s := limitedTo { nanos := 1000000 }
    let client : Client Nat := fun _ asked => (.immediate (.ok []), asked + 1)
    s.validate = .ok () ∧ s.timeLimit.length < 2 ^ 63 ∧ ∃ scheduler,
      (s.composeScheduler (some ({} : MemoryStore)) (some client)).1 = .ok ({}, scheduler) ∧
        scheduler.crew.Limited 1 ∧ ¬scheduler.crew.Unlimited := by
  intro s client
  have accepted : s.validate = .ok () := limitedTo_accepted (by decide)
  have below : s.timeLimit.length < 2 ^ 63 := by decide
  obtain ⟨scheduler, made, -, limited, sentence, -⟩ :=
    deadlines_from_milliseconds accepted below ({} : MemoryStore) client
  have one : s.timeLimit.counted / 10 ^ 6 = 1 := by decide
  refine ⟨accepted, below, scheduler, made, one ▸ limited (by decide), ?_⟩
  rw [sentence.mp (.inr (by decide))]
  decide

/-- A positive limit of less than a millisecond is accepted, and there is no deadline then. -/
theorem short_limit_unlimited :
    let s := limitedTo { nanos := 1 }
    s.validate = .ok () ∧ 0 < s.timeLimit.length ∧ s.timeLimit.length < 2 ^ 63 ∧
      ∀ {ε : Type} (client : Client ε), ∃ scheduler,
        (s.composeScheduler (some ({} : MemoryStore)) (some client)).1 = .ok ({}, scheduler) ∧
          scheduler.crew.Unlimited := by
  intro s
  have accepted : s.validate = .ok () := limitedTo_accepted (by decide)
  refine ⟨accepted, by decide, by decide, fun client => ?_⟩
  refine ⟨_, composeScheduler_eq (validate_eq_ok_iff.mp accepted) _ client,
    Crew.unlimited_iff.mpr ?_⟩
  rw [schedulerBy_limit]
  decide

end Settings
end CodeAudit
