import CodeAudit.Proofs.Scheduler.PoolHistory
import CodeAudit.Proofs.Store.Lawful

/-! What a run writes. The rows of the store are at all times those of the beginning with the
results of the tasks that have succeeded, and nothing else of the store changes. -/
namespace CodeAudit

open TaskStore

def amended (keep : Text → Text) (fates : List (Task × Fate)) (row : Task) : Task :=
  fates.foldl (fun row (task, fate) =>
    match fate.result? with
    | some result => row.amend task.id (keep result)
    | none => row) row

section Rows
variable {keep : Text → Text} {fates : List (Task × Fate)} {row task : Task} {result : Text}

theorem amended_append (first second : List (Task × Fate)) :
    amended keep (first ++ second) = amended keep second ∘ amended keep first := by
  funext row
  simp only [amended, List.foldl_append, Function.comp]

/-- Only the result of a row changes. -/
theorem amended_frame (keep : Text → Text) (fates : List (Task × Fate)) (row : Task) :
    ∃ result, amended keep fates row = { row with result } := by
  induction fates generalizing row with
  | nil => exact ⟨row.result, rfl⟩
  | cons told fates ih =>
    obtain ⟨task, fate⟩ := told
    cases met : fate.result? with
    | none => simpa only [amended, List.foldl_cons, met] using ih row
    | some found =>
      obtain ⟨result, same⟩ := ih (row.amend task.id (keep found))
      refine ⟨result, ?_⟩
      simp only [amended, List.foldl_cons, met] at same ⊢
      rw [same]
      unfold Task.amend
      split <;> rfl

theorem amended_id (keep : Text → Text) (fates : List (Task × Fate)) (row : Task) :
    (amended keep fates row).id = row.id := by
  obtain ⟨result, same⟩ := amended_frame keep fates row
  rw [same]

theorem amended_groupId (keep : Text → Text) (fates : List (Task × Fate)) (row : Task) :
    (amended keep fates row).groupId = row.groupId := by
  obtain ⟨result, same⟩ := amended_frame keep fates row
  rw [same]

theorem amended_unmet
    (unmet : ∀ task result, (task, .succeeded result) ∈ fates → task.id ≠ row.id) :
    amended keep fates row = row := by
  induction fates with
  | nil => rfl
  | cons told fates ih =>
    obtain ⟨task, fate⟩ := told
    have later := ih (fun task result member => unmet task result (List.mem_cons_of_mem _ member))
    cases fate with
    | succeeded result =>
      have other := unmet task result List.mem_cons_self
      have kept : row.amend task.id (keep result) = row := if_neg (Ne.symm other)
      simpa only [amended, List.foldl_cons, Fate.result?, kept] using later
    | _ => exact later

/-- The row of a task that has succeeded holds what the store keeps of its result. -/
theorem amended_met (distinct : (fates.map (·.1.id)).Nodup)
    (met : (task, .succeeded result) ∈ fates) (same : task.id = row.id) :
    amended keep fates row = { row with result := keep result } := by
  obtain ⟨before, after, rfl⟩ := List.append_of_mem met
  rw [List.map_append, List.nodup_append] at distinct
  obtain ⟨_, inside, apart⟩ := distinct
  obtain ⟨fresh, _⟩ := List.nodup_cons.mp inside
  have first : amended keep before row = row := by
    refine amended_unmet (fun other text member alike => ?_)
    exact apart other.id (List.mem_map_of_mem member) task.id List.mem_cons_self
      (alike.trans same.symm)
  rw [amended_append, Function.comp, first]
  have here : row.amend task.id (keep result) = { row with result := keep result } :=
    if_pos same.symm
  simp only [amended, List.foldl_cons, Fate.result?, here]
  refine amended_unmet (fun other text member alike => fresh ?_)
  exact List.mem_map.mpr ⟨_, member, alike.trans same.symm⟩

theorem amended_none (none : ∀ told ∈ fates, told.2.result? = none) : amended keep fates = id := by
  funext row
  refine amended_unmet (fun task result member => ?_)
  cases none _ member

end Rows

namespace History
variable {history later : History} {done : List Act} {i : Nat}

@[simp] theorem fates_append : fates (history ++ later) = fates history ++ fates later :=
  List.filterMap_append

@[simp] theorem called_append : called (history ++ later) = called history ++ called later :=
  List.filterMap_append

@[simp] theorem fates_same : fates (done.map (i, ·)) = fatesOf done := by
  simp [fates, fatesOf, List.filterMap_map]

end History

variable {σ τ ε : Type} [TaskStore σ τ] [Lawful σ] {crew : Crew ε}

theorem mapRows_none {fates : List (Task × Fate)} (none : ∀ told ∈ fates, told.2.result? = none)
    (store : σ) :
    mapRows (amended (keep σ) fates) store = store := by
  rw [amended_none none, Lawful.mapRows_id]

theorem settled_none (task : Task) (fault : Fault) :
    ∀ told ∈ fatesOf [.settled task fault.state], told.2.result? = none := by
  simp [Fault.fate_result]

/-- A step writes the result that it commits, and one that commits nothing leaves the store
alone. -/
theorem GroupRun.Moves.stored {run : GroupRun} {store stored : σ} {env outside : ε}
    {done : List Act} {progress : Progress}
    (moves : Moves crew run store env done progress stored outside) :
    stored = mapRows (amended (keep σ) (fatesOf done)) store := by
  cases moves with
  | finish _ _ | skip _ _ _ | turnDown _ _ _ _ | accept _ _ _ _ | unbriefed _ _ | call _ =>
    exact (mapRows_none (by simp [Act.fate?, Fate.result?]) store).symm
  | abort _ _ _ _ | late _ _ | blank _ _ _ | answer _ _ _ _ =>
    exact (mapRows_none (by simp [Act.fate?, Fate.result?]) store).symm
  | refuse _ _ _ => exact (mapRows_none (settled_none _ _) store).symm
  | unread _ _ _ _ | misbrief _ _ _ _ _ _ _ =>
    rw [(finishedSiblings_reads store _).1]
    exact (mapRows_none (settled_none _ _) store).symm
  | first _ _ _ _ _ | brief _ _ _ _ _ _ _ =>
    rw [(finishedSiblings_reads store _).1]
    exact (mapRows_none (by simp) store).symm
  | @save task result _ saved =>
    rcases saveResult_writes store task.id result with ⟨_, _, written⟩ | ⟨⟨fault, refused⟩, _⟩
    · exact written
    · rw [refused] at saved
      contradiction
  | @unsaved task result fault _ refused =>
    rcases saveResult_writes store task.id result with ⟨saved, _⟩ | ⟨_, kept, _⟩
    · rw [saved] at refused
      contradiction
    · exact kept.trans (mapRows_none (settled_none _ _) store).symm

namespace WorkerPool
variable {pool after start : WorkerPool σ ε} {history : History} {i : Nat} {done : List Act}
  {drift : σ → σ → Prop}

theorem Moves.stored (moves : Moves crew pool i done after) :
    after.store = mapRows (amended (keep σ) (fatesOf done)) pool.store := by
  cases moves with
  | absent _ | rest _ _ | wait _ _ _ _ => exact (mapRows_none (by simp) _).symm
  | leave _ _ _ _ replaces =>
    rw [replaces.2.1]
    exact (mapRows_none (by simp) _).symm
  | take _ _ _ replaces =>
    rw [replaces.2.1]
    exact (mapRows_none (by simp [Act.fate?]) _).symm
  | work _ _ moves replaces | finish _ _ moves replaces | abort _ _ moves replaces =>
    rw [replaces.2.1]
    exact moves.stored

/-- The store of a run, as far as it does not change by itself, is that of the beginning with the
results of the run written over it. -/
theorem Reaches.stored {κ : Type} (core : σ → κ)
    (drifts : ∀ before after, drift before after → core after = core before)
    (carries : ∀ change first second, core first = core second →
      core (mapRows change first) = core (mapRows change second))
    (path : Reaches crew drift start history pool) :
    core pool.store = core (mapRows (amended (keep σ) history.fates) start.store) := by
  induction path with
  | refl => exact congrArg core (Lawful.mapRows_id _).symm
  | @step history pool i _ ih =>
    rw [(step_moves crew pool i).stored, carries _ _ _ ih, Lawful.mapRows_mapRows,
      History.fates_append,
      History.fates_same, amended_append]
  | drift _ drifted ih => exact (drifts _ _ drifted).trans ih

theorem Reaches.rows_amended (path : Reaches crew drift start history pool)
    (drifts : ∀ before after, drift before after → rows after = rows before) :
    rows pool.store = (rows start.store).map (amended (keep σ) history.fates) := by
  rw [← Lawful.rows_mapRows]
  refine path.stored rows drifts (fun change first second same => ?_)
  rw [Lawful.rows_mapRows, Lawful.rows_mapRows, same]

/-- Every act of a history was taken in a step. -/
theorem Reaches.origin {σ τ ε : Type} [TaskStore σ τ] {crew : Crew ε} {drift : σ → σ → Prop}
    {start pool : WorkerPool σ ε} {history : History} {i : Nat} {act : Act}
    (path : Reaches crew drift start history pool) (member : (i, act) ∈ history) :
    ∃ earlier before later, Reaches crew drift start earlier before ∧ act ∈ before.acts crew i ∧
      history = earlier ++ (before.acts crew i).map (i, ·) ++ later := by
  induction path with
  | refl => contradiction
  | @step history pool j path ih =>
    rcases List.mem_append.mp member with member | member
    · obtain ⟨earlier, before, later, reached, taken, split⟩ := ih member
      exact ⟨earlier, before, later ++ (pool.acts crew j).map (j, ·), reached, taken,
        by simp [split]⟩
    · obtain ⟨found, taken, same⟩ := List.mem_map.mp member
      obtain ⟨rfl, rfl⟩ := Prod.mk.inj same
      exact ⟨history, pool, [], path, taken, (List.append_nil _).symm⟩
  | drift _ _ ih => exact ih member

end WorkerPool
end CodeAudit
