import CodeAudit.Proofs.Scheduler.Foresight

/-! All interleavings come to the same. Task by task, in the order of the list, the fates of two
runs are foreseen from the same siblings, and the report and the store are made of the fates
alone. -/
namespace CodeAudit

open TaskStore

section Fates
variable {keep : Text → Text} {rows tasks : List Task} {first second : List (Task × Fate)}
  {task : Task}

theorem finishedBefore_congr (left : (first.map (·.1.id)).Nodup)
    (right : (second.map (·.1.id)).Nodup)
    (same : ∀ told, told.1 ∈ preceding tasks task → (told ∈ first ↔ told ∈ second)) :
    finishedBefore keep rows tasks first task = finishedBefore keep rows tasks second task := by
  unfold finishedBefore
  refine congrArg _ (List.map_congr_left (fun row _ => ?_))
  refine amended_congr ((List.filter_sublist.map _).nodup left)
    ((List.filter_sublist.map _).nodup right) ?_
  intro other result _
  simp only [List.mem_filter, decide_eq_true_eq]
  exact and_congr_left (same (other, .succeeded result))

/-- One fate of every task, foreseen from the siblings that are finished before it. -/
structure Foretold (foresee : List Task → Task → Option Fate) (keep : Text → Text)
    (rows tasks : List Task) (fates : List (Task × Fate)) : Prop where
  all : (fates.map Prod.fst).Perm tasks
  foreseen : ∀ task fate, (task, fate) ∈ fates →
    foresee (finishedBefore keep rows tasks fates task) task = some fate

variable {foresee : List Task → Task → Option Fate}

/-- Once the fates of the tasks before are the same, so is that of a task. -/
theorem Foretold.carried (one : Foretold foresee keep rows tasks first)
    (other : Foretold foresee keep rows tasks second) (distinct : (tasks.map Task.id).Nodup)
    (earlier : ∀ told, told.1 ∈ preceding tasks task → (told ∈ first ↔ told ∈ second)) {fate : Fate}
    (met : (task, fate) ∈ first) : (task, fate) ∈ second := by
  have listed : task ∈ second.map Prod.fst :=
    other.all.mem_iff.mpr (one.all.subset (List.mem_map_of_mem met))
  obtain ⟨⟨same, twin⟩, again, rfl⟩ := List.mem_map.mp listed
  have alike : finishedBefore keep rows tasks first same =
      finishedBefore keep rows tasks second same :=
    finishedBefore_congr (RunReport.ids_nodup one.all distinct)
      (RunReport.ids_nodup other.all distinct) earlier
  have answer := other.foreseen same twin again
  rw [← alike, one.foreseen same fate met] at answer
  exact Option.some.inj answer ▸ again

/-- Fates that are foreseen alike are the same. -/
theorem Foretold.agree (one : Foretold foresee keep rows tasks first)
    (other : Foretold foresee keep rows tasks second) (distinct : (tasks.map Task.id).Nodup) :
    first.Perm second := by
  have agree (before : List Task) (initial : before <+: tasks) :
      ∀ told : Task × Fate, told.1 ∈ before → (told ∈ first ↔ told ∈ second) := by
    induction before using List.reverseRecOn with
    | nil => nofun
    | append_singleton before task ih =>
      have earlier := ih (.trans ⟨[task], rfl⟩ initial)
      obtain ⟨later, split⟩ := initial
      rw [List.append_assoc, List.singleton_append] at split
      have once : (before ++ task :: later).Nodup := split ▸ .of_map _ distinct
      have fresh : task ∉ before := fun again =>
        (List.nodup_append.mp once).2.2 task again task List.mem_cons_self rfl
      have ahead : preceding tasks task = before := split ▸ preceding_split fresh
      rintro ⟨found, fate⟩ member
      rcases List.mem_append.mp member with member | member
      · exact earlier _ member
      · obtain rfl := List.mem_singleton.mp member
        rw [← ahead] at earlier
        constructor
        · exact one.carried other distinct earlier
        · exact other.carried one distinct (fun told before => (earlier told before).symm)
  refine (List.perm_ext_iff_of_nodup ?_ ?_).mpr (fun told => ?_)
  · exact .of_map _ (RunReport.ids_nodup one.all distinct)
  · exact .of_map _ (RunReport.ids_nodup other.all distinct)
  · constructor
    · intro met
      exact (agree tasks (List.prefix_refl _) told (one.all.subset (List.mem_map_of_mem met))).mp
        met
    · intro met
      exact (agree tasks (List.prefix_refl _) told (other.all.subset (List.mem_map_of_mem met))).mpr
        met

end Fates

namespace Scheduler
variable {σ τ ε : Type} [TaskStore σ τ] [Lawful σ] {scheduler : Scheduler ε}
  {filter : Option (Filter ε)} {tasks : List Task} {store : σ} {workers others : UInt64}
  {env outer : ε} {history told : History} {answer other : Except Fault RunReport}
  {stored ended : σ} {outside left : ε}

end Scheduler
end CodeAudit
