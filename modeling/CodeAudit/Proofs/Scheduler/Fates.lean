import CodeAudit.Proofs.Scheduler.Acts
import CodeAudit.Proofs.Scheduler.States
import Mathlib.Data.List.Induction

/-! What becomes of the tasks of a run, and the report that tells it. Where no id occurs twice, the
report depends on the fates of the tasks alone and not on the order in which they were met or
merged. -/
namespace CodeAudit

/-- How a run leaves a task. -/
inductive Fate where
  /-- It had a result before. -/
  | done
  | turnedDown
  | succeeded (result : Text)
  | failed
  | requeued
deriving DecidableEq

namespace Fate

def state : Fate → TaskState
  | done | succeeded _ => .succeeded
  | turnedDown => .pending
  | failed => .failed
  | requeued => .requeued

def isExecuted : Fate → Bool
  | done | turnedDown => false
  | _ => true

/-- What the run stored for the task. -/
def result? : Fate → Option Text
  | succeeded result => some result
  | _ => none

end Fate

theorem Fault.state_ne_succeeded (fault : Fault) : fault.state ≠ .succeeded := by
  unfold Fault.state
  split <;> simp

def Fault.fate (fault : Fault) : Fate := if fault.kind = .timeout then .requeued else .failed

theorem Fault.fate_result (fault : Fault) : fault.fate.result? = none := by
  unfold Fault.fate
  split <;> rfl

def Act.fate? : Act → Option (Task × Fate)
  | skipped task => some (task, .done)
  | judged task (.ok false) => some (task, .turnedDown)
  | committed task result => some (task, .succeeded result)
  | settled task .failed => some (task, .failed)
  | settled task .requeued => some (task, .requeued)
  | _ => none

@[simp] theorem Act.unbriefed_fate (task : Task) : (Act.unbriefed task).fate? = none := rfl

@[simp] theorem Act.briefed_fate (task : Task) (siblings : List Task)
    (summary : Except Fault (Option Text)) :
    (Act.briefed task siblings summary).fate? = none := rfl

@[simp] theorem Act.called_fate (task : Task) (summary : Option Text) :
    (Act.called task summary).fate? = none := rfl

@[simp] theorem Act.returned_fate (task : Task) (call : Call) :
    (Act.returned task call).fate? = none := rfl

@[simp] theorem Act.settled_fate (task : Task) (fault : Fault) :
    (Act.settled task fault.state).fate? = some (task, fault.fate) := by
  unfold Fault.fate Fault.state
  split <;> rfl

def fatesOf (acts : List Act) : List (Task × Fate) := acts.filterMap Act.fate?

@[simp] theorem fatesOf_cons (act : Act) (acts : List Act) :
    fatesOf (act :: acts) = act.fate?.toList ++ fatesOf acts := by
  cases sealed : act.fate? <;> simp [fatesOf, sealed]

@[simp] theorem fatesOf_nil : fatesOf [] = [] := rfl

@[simp] theorem fatesOf_append (first second : List Act) :
    fatesOf (first ++ second) = fatesOf first ++ fatesOf second := List.filterMap_append

def History.fates (history : History) : List (Task × Fate) :=
  history.filterMap (fun (_, act) => act.fate?)

namespace RunReport

def statesOf (fates : List (Task × Fate)) : List (UInt64 × TaskState) :=
  fates.foldl (fun states (task, fate) => putState task.id fate.state states) []

def ofFates (groups : Nat) (fates : List (Task × Fate)) : RunReport :=
  { groups := UInt64.ofNat groups
    executed := UInt64.ofNat (fates.countP (fun (_, fate) => fate.isExecuted))
    succeeded := UInt64.ofNat (fates.countP (fun (_, fate) => fate.result?.isSome))
    failed := UInt64.ofNat (fates.countP (fun (_, fate) => fate = .failed))
    timedOut := UInt64.ofNat (fates.countP (fun (_, fate) => fate = .requeued))
    skippedDone := UInt64.ofNat (fates.countP (fun (_, fate) => fate = .done))
    skippedFiltered := UInt64.ofNat (fates.countP (fun (_, fate) => fate = .turnedDown))
    states := statesOf fates }

theorem ofFates_nil : ofFates 0 [] = {} := rfl

/-- The report once a task has been taken up and while its fate is open. -/
def underway (report : RunReport) : RunReport := { report with executed := report.executed + 1 }

theorem statesOf_concat (fates : List (Task × Fate)) (task : Task) (fate : Fate) :
    statesOf (fates ++ [(task, fate)]) = putState task.id fate.state (statesOf fates) := by
  simp [statesOf]

theorem statesOf_ordered (fates : List (Task × Fate)) : Ordered (statesOf fates) := by
  induction fates using List.reverseRecOn with
  | nil => exact .nil
  | append_singleton fates last ih =>
    rw [statesOf_concat]
    exact putState_ordered ih

variable {fates first second : List (Task × Fate)}

/-- Where no id occurs twice, every fate is told. -/
theorem mem_statesOf (distinct : (fates.map (·.1.id)).Nodup) {entry : UInt64 × TaskState} :
    entry ∈ statesOf fates ↔ ∃ told ∈ fates, entry = (told.1.id, told.2.state) := by
  induction fates using List.reverseRecOn with
  | nil => simp [statesOf]
  | append_singleton fates last ih =>
    obtain ⟨distinct, _, apart⟩ := List.nodup_append.mp (List.map_append ▸ distinct)
    rw [statesOf_concat, mem_putState (statesOf_ordered fates), ih distinct]
    simp only [List.mem_append, List.mem_singleton]
    constructor
    · rintro (rfl | ⟨⟨told, member, rfl⟩, _⟩)
      · exact ⟨last, .inr rfl, rfl⟩
      · exact ⟨told, .inl member, rfl⟩
    · rintro ⟨told, member | rfl, rfl⟩
      · exact .inr ⟨⟨told, member, rfl⟩, apart _ (List.mem_map_of_mem member) _
          (List.mem_singleton_self _)⟩
      · exact .inl rfl

theorem statesOf_perm (same : first.Perm second) (distinct : (first.map (·.1.id)).Nodup) :
    statesOf first = statesOf second := by
  refine (statesOf_ordered first).ext (statesOf_ordered second) (fun entry => ?_)
  rw [mem_statesOf distinct, mem_statesOf ((same.map _).nodup_iff.mp distinct)]
  simp only [same.mem_iff]

theorem ofFates_perm (groups : Nat) (same : first.Perm second)
    (distinct : (first.map (·.1.id)).Nodup) :
    ofFates groups first = ofFates groups second := by
  simp only [ofFates, same.countP_eq, statesOf_perm same distinct]

/-- Fates of all tasks have the ids of the tasks. -/
theorem ids_nodup {tasks : List Task} (all : (first.map Prod.fst).Perm tasks)
    (distinct : (tasks.map Task.id).Nodup) :
    (first.map (·.1.id)).Nodup := by
  have ids := all.map Task.id
  rw [List.map_map] at ids
  exact ids.nodup_iff.mpr distinct

theorem statesOf_append (distinct : ((first ++ second).map (·.1.id)).Nodup) :
    (statesOf second).foldl addState (statesOf first) = statesOf (first ++ second) := by
  refine (foldl_addState_ordered (statesOf_ordered first) _).ext (statesOf_ordered _)
    (fun entry => ?_)
  obtain ⟨left, right, apart⟩ := List.nodup_append.mp (List.map_append ▸ distinct)
  rw [mem_foldl_addState (statesOf_ordered first) (statesOf_ordered second).keys_nodup,
    mem_statesOf left,
    mem_statesOf right, mem_statesOf distinct]
  simp only [List.mem_append]
  constructor
  · rintro (⟨told, member, rfl⟩ | ⟨⟨told, member, rfl⟩, _⟩)
    · exact ⟨told, .inl member, rfl⟩
    · exact ⟨told, .inr member, rfl⟩
  · rintro ⟨told, member | member, rfl⟩
    · exact .inl ⟨told, member, rfl⟩
    · refine .inr ⟨⟨told, member, rfl⟩, fun known old => ?_⟩
      obtain ⟨earlier, before, rfl⟩ := (mem_statesOf left).mp old
      exact apart _ (List.mem_map_of_mem before) _ (List.mem_map_of_mem member)

theorem merge_ofFates (groups others : Nat) (distinct : ((first ++ second).map (·.1.id)).Nodup) :
    (ofFates groups first).merge (ofFates others second) =
      ofFates (groups + others) (first ++ second) := by
  simp only [merge, ofFates, statesOf_append distinct, List.countP_append, UInt64.ofNat_add]

theorem mergeAll_concat (reports : List RunReport) (last : RunReport) :
    mergeAll (reports ++ [last]) = (mergeAll reports).merge last := by
  simp [mergeAll]

/-- Reports merged one after another tell what one report of everything would. -/
theorem mergeAll_ofFates (parts : List (List TaskGroup × List (Task × Fate)))
    (distinct : ((parts.flatMap Prod.snd).map (·.1.id)).Nodup) :
    mergeAll (parts.map (fun (groups, fates) => ofFates groups.length fates)) =
      ofFates (parts.flatMap Prod.fst).length (parts.flatMap Prod.snd) := by
  induction parts using List.reverseRecOn with
  | nil => exact ofFates_nil.symm
  | append_singleton parts last ih =>
    simp only [List.flatMap_append, List.flatMap_cons, List.flatMap_nil,
      List.append_nil] at distinct ⊢
    have earlier := (List.nodup_append.mp (List.map_append ▸ distinct)).1
    simp only [List.map_append, List.map_cons, List.map_nil, mergeAll_concat, ih earlier,
      merge_ofFates _ _ distinct,
      List.length_append]

end RunReport

namespace GroupRun
variable {run : GroupRun} {fates : List (Task × Fate)} {groups : Nat}

open RunReport

theorem skipDone_report (told : run.report = ofFates groups fates) (task : Task)
    (rest : List Task) :
    (run.skipDone task rest).report = ofFates groups (fates ++ [(task, .done)]) := by
  simp [skipDone, record, told, ofFates, statesOf_concat, Fate.state, Fate.isExecuted, Fate.result?]

theorem skipFiltered_report (told : run.report = ofFates groups fates) (task : Task)
    (rest : List Task) :
    (run.skipFiltered task rest).report = ofFates groups (fates ++ [(task, .turnedDown)]) := by
  simp [skipFiltered, record, told, ofFates, statesOf_concat, Fate.state, Fate.isExecuted,
    Fate.result?]

theorem succeed_report (told : run.report = (ofFates groups fates).underway) (task : Task)
    (result : Text) :
    (run.succeed task result).1.report = ofFates groups (fates ++ [(task, .succeeded result)]) := by
  simp [succeed, record, told, underway, ofFates, statesOf_concat, Fate.state, Fate.isExecuted,
    Fate.result?]

theorem settle_report (told : run.report = (ofFates groups fates).underway) (task : Task)
    (fault : Fault) :
    (run.settle task fault).1.report = ofFates groups (fates ++ [(task, fault.fate)]) := by
  unfold settle Fault.fate
  split <;>
    simp [record, told, underway, ofFates, statesOf_concat, Fate.state, Fate.isExecuted,
      Fate.result?]

@[simp] theorem settle_stage (task : Task) (fault : Fault) :
    (run.settle task fault).1.stage = .deciding := by
  unfold settle
  split <;> rfl

@[simp] theorem settle_waiting (task : Task) (fault : Fault) :
    (run.settle task fault).1.waiting = run.waiting := by
  unfold settle
  split <;> rfl

end GroupRun
end CodeAudit
