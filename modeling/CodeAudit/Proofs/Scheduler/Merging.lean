import CodeAudit.Proofs.Scheduler.States
import Mathlib.Algebra.BigOperators.Group.List.Basic
import Mathlib.Algebra.Group.Prod
import Mathlib.Data.UInt

/-! Reports merged. A report, whose ids stand in increasing order from the empty report on, is known
by its counters, which add up, and by the state it has for each id, where the first report that has
one is kept. So it makes no difference how the merging is grouped, nor in which order reports come
that do not contradict each other. -/
namespace CodeAudit.RunReport
variable {a b c r : RunReport} {reports others : List RunReport} {id : UInt64}
  {state other : TaskState}

def counters (r : RunReport) : UInt64 × UInt64 × UInt64 × UInt64 × UInt64 × UInt64 × UInt64 :=
  (r.groups, r.executed, r.succeeded, r.failed, r.timedOut, r.skippedDone, r.skippedFiltered)

def state? (r : RunReport) (id : UInt64) : Option TaskState :=
  (r.states.find? (fun entry => entry.1 = id)).map Prod.snd

theorem Ordered.state_unique (ordered : Ordered r.states) (first : (id, state) ∈ r.states)
    (second : (id, other) ∈ r.states) : state = other := by
  have same := List.inj_on_of_nodup_map ordered.keys_nodup first second rfl
  exact congrArg Prod.snd same

theorem state?_eq_none : r.state? id = none ↔ ∀ known ∈ r.states, known.1 ≠ id := by
  simp [state?]

theorem mem_of_state? (found : r.state? id = some state) : (id, state) ∈ r.states := by
  obtain ⟨⟨i, _⟩, there, rfl⟩ := Option.map_eq_some_iff.mp found
  have same : i = id := by simpa using List.find?_some there
  exact same ▸ List.mem_of_find?_eq_some there

theorem Ordered.state?_eq_some (ordered : Ordered r.states) :
    r.state? id = some state ↔ (id, state) ∈ r.states := by
  constructor
  · exact mem_of_state?
  · intro member
    cases found : r.state? id with
    | none => exact absurd rfl (state?_eq_none.mp found _ member)
    | some other => rw [ordered.state_unique (mem_of_state? found) member]

/-- Counters and states are all there is to a report. -/
theorem ext_state? (ordered : Ordered a.states) (alike : Ordered b.states)
    (counted : a.counters = b.counters) (same : ∀ id, a.state? id = b.state? id) : a = b := by
  have states : a.states = b.states := by
    apply ordered.ext alike
    rintro ⟨id, state⟩
    rw [← ordered.state?_eq_some, ← alike.state?_eq_some, same]
  cases a
  cases b
  simp only [counters, Prod.mk.injEq] at counted
  simp_all

/-! ### Two reports -/

theorem counters_merge : (a.merge b).counters = a.counters + b.counters := rfl

theorem Ordered.merge (ordered : Ordered a.states) : Ordered (a.merge b).states :=
  foldl_addState_ordered ordered b.states

theorem state?_merge (ordered : Ordered a.states) (alike : Ordered b.states) :
    (a.merge b).state? id = (a.state? id).or (b.state? id) := by
  apply Option.ext
  intro state
  have merged : Ordered (a.merge b).states := ordered.merge
  rw [merged.state?_eq_some, Option.or_eq_some_iff, ordered.state?_eq_some, alike.state?_eq_some,
    state?_eq_none]
  refine (mem_foldl_addState ordered alike.keys_nodup).trans (or_congr_right ?_)
  exact and_comm

theorem merge_assoc (first : Ordered a.states) (second : Ordered b.states)
    (third : Ordered c.states) :
    (a.merge b).merge c = a.merge (b.merge c) := by
  apply ext_state? first.merge.merge first.merge
  · simp only [counters_merge, add_assoc]
  · intro id
    rw [state?_merge first.merge third, state?_merge first second, state?_merge first second.merge,
      state?_merge second third, Option.or_assoc]

theorem empty_merge (ordered : Ordered a.states) : merge {} a = a := by
  have none : Ordered ({} : RunReport).states := .nil
  apply ext_state? none.merge ordered
  · exact zero_add a.counters
  · intro id
    rw [state?_merge none ordered]
    rfl

theorem merge_empty (ordered : Ordered a.states) : a.merge {} = a := by
  apply ext_state? ordered.merge ordered
  · exact add_zero a.counters
  · intro id
    rfl

/-- The two have the same state for every id they share. -/
def Agrees (a b : RunReport) : Prop := ∀ one ∈ a.states, ∀ other ∈ b.states, one.1 = other.1 →
    one.2 = other.2

instance : Decidable (a.Agrees b) :=
  inferInstanceAs
    (Decidable (∀ one ∈ a.states, ∀ other ∈ b.states, one.1 = other.1 → one.2 = other.2))

theorem Agrees.merge_comm (agrees : a.Agrees b) (ordered : Ordered a.states)
    (alike : Ordered b.states) :
    a.merge b = b.merge a := by
  apply ext_state? ordered.merge alike.merge
  · rw [counters_merge, counters_merge, add_comm]
  · intro id
    rw [state?_merge ordered alike, state?_merge alike ordered]
    cases first : a.state? id with
    | none => cases second : b.state? id <;> rfl
    | some state =>
      cases second : b.state? id with
      | none => rfl
      | some other =>
        have same : state = other := agrees _ (mem_of_state? first) _ (mem_of_state? second) rfl
        rw [same]

/-! ### Many reports -/

theorem foldl_merge_ordered (ordered : Ordered r.states) :
    Ordered (reports.foldl merge r).states := by
  induction reports generalizing r with
  | nil => exact ordered
  | cons next rest ih => exact ih ordered.merge

theorem counters_foldl_merge : (reports.foldl merge r).counters =
    r.counters + (reports.map counters).sum := by
  induction reports generalizing r with
  | nil => exact (add_zero r.counters).symm
  | cons next rest ih =>
    rw [List.foldl_cons, ih, counters_merge, List.map_cons, List.sum_cons, add_assoc]

theorem state?_foldl_merge (ordered : Ordered r.states) (each : ∀ r ∈ reports, Ordered r.states) :
    (reports.foldl merge r).state? id = (r.state? id).or
      (reports.findSome? (fun r => r.state? id)) := by
  induction reports generalizing r with
  | nil => exact Option.or_none.symm
  | cons next rest ih =>
    obtain ⟨head, tail⟩ := List.forall_mem_cons.mp each
    rw [List.foldl_cons, ih ordered.merge tail, state?_merge ordered head, Option.or_assoc,
      List.findSome?_cons]
    cases next.state? id <;> rfl

/-- The order of the reports still to come makes no difference, whatever has been merged before. -/
theorem foldl_merge_perm (same : reports.Perm others) (ordered : Ordered r.states)
    (each : ∀ r ∈ reports, Ordered r.states) (agree : ∀ a ∈ reports, ∀ b ∈ reports, a.Agrees b) :
    reports.foldl merge r = others.foldl merge r := by
  induction same generalizing r with
  | nil => rfl
  | cons next _ ih =>
    apply ih ordered.merge
    · exact (List.forall_mem_cons.mp each).2
    · intro a first b second
      exact agree a (List.mem_cons_of_mem _ first) b (List.mem_cons_of_mem _ second)
  | swap a b rest =>
    have first : Ordered a.states := each a (by simp)
    have second : Ordered b.states := each b (by simp)
    have alike : b.Agrees a := agree b (by simp) a (by simp)
    have turned : (r.merge b).merge a = (r.merge a).merge b := by
      rw [merge_assoc ordered second first, alike.merge_comm second first,
        merge_assoc ordered first second]
    rw [List.foldl_cons, List.foldl_cons, List.foldl_cons, List.foldl_cons, turned]
  | trans former _ ih further =>
    rw [ih ordered each agree]
    apply further ordered
    · intro a member
      exact each a (former.mem_iff.mpr member)
    · intro a first b second
      exact agree a (former.mem_iff.mpr first) b (former.mem_iff.mpr second)

/-- Merging may be grouped at will and starts from the empty report. Of many reports it adds up the
counters and keeps the first state of every id, and reports that do not contradict each other may
come in any order. -/
theorem merging_orderless :
    (∀ a b c : RunReport, Ordered a.states → Ordered b.states → Ordered c.states →
      (a.merge b).merge c = a.merge (b.merge c) ∧ merge {} a = a ∧ a.merge {} = a) ∧
    ∀ reports : List RunReport, (∀ r ∈ reports, Ordered r.states) →
      Ordered (mergeAll reports).states ∧
      (mergeAll reports).counters = (reports.map counters).sum ∧
      (∀ id, (mergeAll reports).state? id = reports.findSome? (fun r => r.state? id)) ∧
      ∀ others, reports.Perm others → (∀ a ∈ reports, ∀ b ∈ reports, a.Agrees b) →
        mergeAll reports = mergeAll others := by
  have none : Ordered ({} : RunReport).states := .nil
  constructor
  · intro a b c first second third
    exact ⟨merge_assoc first second third, empty_merge first, merge_empty first⟩
  · intro reports each
    refine ⟨foldl_merge_ordered none, ?_, ?_, ?_⟩
    · exact counters_foldl_merge.trans (zero_add _)
    · intro id
      exact state?_foldl_merge none each
    · intro others same agree
      exact foldl_merge_perm same none each agree

/-- Two workers met the task 1 in the same state. -/
def shifts : List RunReport :=
  [{ groups := 18446744073709551615, executed := 3, states := [(1, .succeeded), (4, .pending)] },
    { groups := 2, executed := 1, states := [(1, .succeeded), (2, .failed)] },
    { executed := 1, states := [(3, .requeued)] }]

def laterShift : RunReport := { groups := 1, states := [(4, .succeeded), (5, .failed)] }

/-- The number of groups wraps around, and where the reports differ on the task 4 the first is
kept. -/
theorem merging_orderless_shifts :
    mergeAll shifts = mergeAll shifts.reverse ∧ (mergeAll shifts).groups = 1 ∧
      (mergeAll (shifts ++ [laterShift])).state? 4 = some .pending ∧
      (mergeAll (laterShift :: shifts)).state? 4 = some .succeeded ∧
      (laterShift.merge (mergeAll shifts)).merge laterShift =
        laterShift.merge ((mergeAll shifts).merge laterShift) := by
  obtain ⟨grouping, many⟩ := merging_orderless
  have ordered : ∀ r ∈ shifts, Ordered r.states := by decide
  have later : Ordered laterShift.states := by decide
  obtain ⟨whole, counted, _, turned⟩ := many shifts ordered
  obtain ⟨_, _, last, _⟩ := many (shifts ++ [laterShift]) (by decide)
  obtain ⟨_, _, first, _⟩ := many (laterShift :: shifts) (by decide)
  refine ⟨turned _ shifts.reverse_perm.symm (by decide), congrArg Prod.fst counted, ?_, ?_, ?_⟩
  · exact last 4
  · exact first 4
  · exact (grouping laterShift (mergeAll shifts) laterShift later whole later).1

end CodeAudit.RunReport
