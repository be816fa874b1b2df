import CodeAudit.Proofs.Scheduler.Selection

/-! Runs over copies of stored tasks. Whether a task needs a result is read off the copy, so that
what is stored is safe where the copies tell what the store does and no task is listed twice without
a result. -/
namespace CodeAudit

open TaskStore

def Act.saved? : Act → Option Task
  | committed task _ => some task
  | _ => none

def History.saved (history : History) : List Task := history.filterMap (fun (_, act) => act.saved?)

@[simp] theorem History.saved_append (history later : History) :
    saved (history ++ later) = saved history ++ saved later := List.filterMap_append

theorem History.mem_saved {history : History} {task : Task} :
    task ∈ history.saved ↔ ∃ result, (task, .succeeded result) ∈ history.fates := by
  constructor
  · intro member
    obtain ⟨⟨i, act⟩, inside, found⟩ := List.mem_filterMap.mp member
    cases act with
    | committed other result =>
      obtain rfl := Option.some.inj found
      exact ⟨result, mem_fates.mpr ⟨i, _, inside, rfl⟩⟩
    | _ => contradiction
  · rintro ⟨result, met⟩
    obtain ⟨i, act, inside, sealed⟩ := mem_fates.mp met
    obtain rfl := Act.fate_succeeded.mp sealed
    exact List.mem_filterMap.mpr ⟨_, inside, rfl⟩

/-- Copies of which none lacks a result that is stored, and no two of one task lack one. -/
structure UpToDate (rows copies : List Task) : Prop where
  stored : ∀ copy ∈ copies, ∀ row ∈ rows, row.id = copy.id → row.isDone = true → copy.isDone = true
  once : ((copies.filter (fun copy => !copy.isDone)).map Task.id).Nodup

namespace WorkerPool
variable {σ τ ε : Type} [TaskStore σ τ] {crew : Crew ε} {copies rows : List Task}
  {groups : List TaskGroup} {count : Nat} {history sofar rest : History}
  {pool former : WorkerPool σ ε} {row task : Task} {keep : Text → Text}

/-- What is picked of the tasks without a result comes with as many ids. -/
theorem Stands.picked_once (stands : Stands crew groups count history pool)
    (splits : TaskGroup.Splits copies groups) (current : UpToDate rows copies)
    (pick : Act → Option Task)
    (looked : ∀ worker own, Worker.Stands crew worker own →
      (own.filterMap pick).Sublist (own.filterMap Act.decided?))
    (undone : ∀ task ∈ history.filterMap (fun entry => pick entry.2), task.isDone = false) :
    ((history.filterMap (fun entry => pick entry.2)).map Task.id).Nodup := by
  have picked := History.perm_own stands.known pick
  have part : ((List.range count).flatMap (fun i => (history.own i).filterMap pick)).Sublist
      ((List.range count).flatMap (fun i => (history.own i).filterMap Act.decided?)) := by
    refine List.Sublist.flatMap_right _ (fun i member => ?_)
    obtain ⟨worker, _, standing⟩ := stands.own (List.mem_range.mp member)
    exact looked worker _ standing
  have listed := (picked.subperm.trans part.subperm).trans (stands.decided_subperm splits)
  obtain ⟨some, same, among⟩ := listed.filter (fun task => !task.isDone)
  have all : (history.filterMap (fun entry => pick entry.2)).filter (fun task => !task.isDone) =
      history.filterMap (fun entry => pick entry.2) :=
    List.filter_eq_self.mpr (fun task member => by simp [undone task member])
  rw [all] at same
  exact (same.map Task.id).nodup_iff.mp ((among.map Task.id).nodup current.once)

theorem Stands.called_judged (stands : Stands crew groups count history pool)
    (called : task ∈ history.called) :
    task ∈ history.judged.map Prod.fst :=
  List.mem_map_of_mem (History.mem_accepted.mp (stands.called_accepted called))

theorem Stands.saved_called (stands : Stands crew groups count history pool)
    (saved : task ∈ history.saved) :
    task ∈ history.called := by
  obtain ⟨result, met⟩ := History.mem_saved.mp saved
  obtain ⟨_, i, summary, _, called, _⟩ := stands.answered met
  exact List.mem_filterMap.mpr ⟨_, called, rfl⟩

/-- Only listed copies without a result are put to the filter. -/
theorem Stands.judged_listed (stands : Stands crew groups count history pool)
    (splits : TaskGroup.Splits copies groups) (judged : task ∈ history.judged.map Prod.fst) :
    task ∈ copies ∧ task.isDone = false := by
  obtain ⟨⟨_, verdict⟩, put, rfl⟩ := List.mem_map.mp judged
  obtain ⟨i, member⟩ := History.mem_judged.mp put
  exact ⟨stands.listed splits member rfl, (stands.judged put).1⟩

theorem Stands.judged_ids (stands : Stands crew groups count history pool)
    (splits : TaskGroup.Splits copies groups) (current : UpToDate rows copies) :
    ((history.judged.map Prod.fst).map Task.id).Nodup := by
  have same : history.judged.map Prod.fst =
      history.filterMap (fun entry => entry.2.judged?.map Prod.fst) :=
    List.map_filterMap
  rw [same]
  refine stands.picked_once splits current (fun act => act.judged?.map Prod.fst)
    (fun worker own _ => ?_) ?_
  · refine History.filterMap_sublist (fun act found picked => ?_) own
    cases act <;> simp_all [Act.judged?, Act.decided?]
  · exact fun task judged => (stands.judged_listed splits (same ▸ judged)).2

theorem Stands.called_ids (stands : Stands crew groups count history pool)
    (splits : TaskGroup.Splits copies groups) (current : UpToDate rows copies) :
    (history.called.map Task.id).Nodup :=
  stands.picked_once splits current Act.called? (fun _ _ standing => standing.calls)
    (fun _ called => (stands.judged_listed splits (stands.called_judged called)).2)

theorem Stands.saved_ids (stands : Stands crew groups count history pool)
    (splits : TaskGroup.Splits copies groups) (current : UpToDate rows copies) :
    (history.saved.map Task.id).Nodup := by
  refine stands.picked_once splits current Act.saved? (fun worker own standing => ?_)
    (fun _ saved =>
      (stands.judged_listed splits (stands.called_judged (stands.saved_called saved))).2)
  refine .trans ?_ standing.fates_sublist
  rw [fatesOf, List.map_filterMap]
  refine History.filterMap_sublist (fun act found picked => ?_) own
  cases act <;> simp_all [Act.saved?, Act.fate?]

/-- Once a row has a result, no copy of its task is taken up any more. -/
theorem Stands.left_alone (stands : Stands crew groups count (sofar ++ rest) pool)
    (earlier : Stands crew groups count sofar former) (splits : TaskGroup.Splits copies groups)
    (current : UpToDate rows copies) (inside : row ∈ rows)
    (isDone : (amended keep sofar.fates row).isDone = true) (same : task.id = row.id) :
    task ∉ rest.judged.map Prod.fst ∧ task ∉ rest.called ∧
      task ∉ rest.saved := by
  have judges := stands.judged_ids splits current
  have calls := stands.called_ids splits current
  have saves := stands.saved_ids splits current
  rw [History.judged_append, List.map_append, List.map_append] at judges
  rw [History.called_append, List.map_append] at calls
  rw [History.saved_append, List.map_append] at saves
  by_cases met : ∃ saved ∈ sofar.saved, saved.id = row.id
  · -- whoever has stored the result has been judged and called for, and no id comes twice
    obtain ⟨saved, stored, alike⟩ := met
    have called := earlier.saved_called stored
    have judged := earlier.called_judged called
    have twice {first second : List Task} (once : (first.map Task.id ++ second.map Task.id).Nodup)
        (before : saved ∈ first) (later : task ∈ second) : False :=
      (List.nodup_append.mp once).2.2 _ (List.mem_map_of_mem before) _ (List.mem_map_of_mem later)
        (alike.trans same.symm)
    exact ⟨twice judges judged, twice calls called, twice saves stored⟩
  · -- the result was there before, and so every copy has it
    have unmet : amended keep sofar.fates row = row := by
      refine amended_unmet (fun saved result found alike => met ⟨saved, ?_, alike⟩)
      exact History.mem_saved.mpr ⟨result, found⟩
    rw [unmet] at isDone
    have idle (judged : task ∈ (sofar ++ rest).judged.map Prod.fst) : False := by
      obtain ⟨listed, undone⟩ := stands.judged_listed splits judged
      rw [current.stored task listed row inside same.symm isDone] at undone
      contradiction
    have uncalled (called : task ∈ (sofar ++ rest).called) : False :=
      idle (stands.called_judged called)
    refine ⟨fun judged => idle ?_, fun called => uncalled ?_, fun saved =>
      uncalled (stands.saved_called ?_)⟩
    · rw [History.judged_append, List.map_append]
      exact List.mem_append_right _ judged
    · rw [History.called_append]
      exact List.mem_append_right _ called
    · rw [History.saved_append]
      exact List.mem_append_right _ saved

end WorkerPool

namespace Scheduler
variable {ε : Type} {backend : Backend}

/-- Over copies that are up to date a run never takes up a task that has a result by then, and what
is stored stays as it is, whatever fails and however the workers' steps interleave. -/
theorem stored_results_kept (scheduler : Scheduler ε) (filter : Option (Filter ε))
    (copies : List Task) (store : Unreliable backend.Store) (env : ε)
    (current : UpToDate (rows store.store) copies) {history : History}
    {answer : Except Fault RunReport} {stored : Unreliable backend.Store} {outside : ε}
    (runs : scheduler.Runs filter Unreliable.Drifts copies store env history answer stored outside)
    {sofar rest : History} (split : history = sofar ++ rest)
    {pool : WorkerPool (Unreliable backend.Store) ε}
    (path : WorkerPool.Reaches (scheduler.crewWith filter) Unreliable.Drifts
      (scheduler.pool (TaskGroup.partition copies) store env) sofar pool)
    {row : Task} (inside : row ∈ rows pool.store.store) (isDone : row.isDone = true) :
    (rows stored.store).filter (fun other => other.id = row.id) =
        (rows pool.store.store).filter (fun other => other.id = row.id) ∧
      ∀ task, task.id = row.id → task ∉ rest.called ∧ task ∉ rest.judged.map Prod.fst := by
  obtain ⟨last, whole, ended⟩ := runs.reached
  subst split
  have splits := TaskGroup.partition_splits copies
  rw [Unreliable.store_amended path, Lawful.rows_mapRows] at inside ⊢
  obtain ⟨old, there, rfl⟩ := List.mem_map.mp inside
  rw [amended_id]
  have alone (task : Task) (same : task.id = old.id) :=
    whole.stands.left_alone path.stands splits current there isDone same
  refine ⟨?_, fun task same => ⟨(alone task same).2.1, (alone task same).1⟩⟩
  have written : stored.store = mapRows (amended (keep backend.Store) (sofar ++ rest).fates)
      store.store :=
    ended ▸ Unreliable.store_amended whole
  rw [written, Lawful.rows_mapRows]
  refine filter_map_congr (fun other _ => ?_)
  by_cases same : other.id = old.id
  · refine .inl ?_
    rw [History.fates_append, amended_append, Function.comp]
    refine amended_unmet (fun task result met alike => ?_)
    rw [amended_id] at alike
    exact (alone task (alike.trans same)).2.2 (History.mem_saved.mpr ⟨result, met⟩)
  · refine .inr ⟨?_, ?_⟩
    all_goals simpa only [amended_id, decide_eq_false_iff_not] using same

def finishedTask : Task := { id := 1, result := utf8 "kept" }

def storeOf (row : Task) : Unreliable Backend.memory.Store :=
  { store := { committed := { tasks := [row] } } }

/-- A finished task, which may be listed more than once, around one without a result. -/
def mixedCopies : List Task := [finishedTask, { id := 2 }, finishedTask]

def mixedStore : Unreliable Backend.memory.Store :=
  { store := { committed := { tasks := [finishedTask, { id := 2 }] } } }

def mixedStart : WorkerPool (Unreliable Backend.memory.Store) Unit :=
  pairScheduler.pool (TaskGroup.partition mixedCopies) mixedStore ()

/-- Where the second task has just got its result, and the last copy is still to be looked at. -/
def mixedMidway : WorkerPool (Unreliable Backend.memory.Store) Unit :=
  mixedStart.run (pairScheduler.crewWith none) (mixedStart.oneAfterAnother.take 9)

/-- One task has its result from the start and the other one gets it on the way. -/
theorem stored_results_kept_midway : ∃ sofar rest answer stored outside,
    pairScheduler.Runs none Unreliable.Drifts mixedCopies mixedStore () (sofar ++ rest)
      answer stored
        outside ∧
      WorkerPool.Reaches (pairScheduler.crewWith none) Unreliable.Drifts mixedStart sofar
        mixedMidway ∧
      mixedMidway.isFinished = false ∧
      rows mixedMidway.store.store = [finishedTask, { id := 2, result := utf8 "safe" }] ∧
      ∀ row ∈ rows mixedMidway.store.store,
        (rows stored.store).filter (fun other => other.id = row.id) = [row] ∧
          ∀ task, task.id = row.id → task ∉ rest.called ∧ task ∉ rest.judged.map Prod.fst := by
  have midway := WorkerPool.run_reaches (pairScheduler.crewWith none) Unreliable.Drifts mixedStart
    (mixedStart.oneAfterAnother.take 9)
  have whole := midway.run (mixedStart.oneAfterAnother.drop 9)
  have runs : pairScheduler.Runs none Unreliable.Drifts mixedCopies mixedStore () _ _ _ _ :=
    .ended (by decide) (by decide) whole (by decide +kernel)
  have current : UpToDate (rows mixedStore.store) mixedCopies := by
    constructor <;> decide
  have held : rows mixedMidway.store.store =
      [finishedTask, { id := 2, result := utf8 "safe" }] := by
    decide +kernel
  have unfinished : mixedMidway.isFinished = false := by decide +kernel
  have results : ∀ row ∈ rows mixedMidway.store.store, row.isDone = true ∧
      (rows mixedMidway.store.store).filter (fun other => other.id = row.id) = [row] := by
    rw [held]
    decide
  refine ⟨_, _, _, _, _, runs, midway, unfinished, held, fun row inside => ?_⟩
  obtain ⟨isDone, alone⟩ := results row inside
  obtain ⟨kept, untouched⟩ := @stored_results_kept Unit .memory pairScheduler none mixedCopies
    mixedStore () current _ _ _ _ runs _ _ rfl _ midway row inside isDone
  exact ⟨kept.trans alone, untouched⟩

/-- A copy from before the result was stored is executed and its answer replaces what is stored, and
so is a task that is listed twice without a result. -/
theorem stale_copies_overwrite :
    (∃ history report stored,
      pairScheduler.Runs none Unreliable.Drifts [{ id := 1 }] (storeOf finishedTask) () history
        (.ok report) stored () ∧
        report.executed = 1 ∧ rows stored.store = [{ finishedTask with result := utf8 "safe" }]) ∧
    ∃ history report stored,
      pairScheduler.Runs none Unreliable.Drifts [{ id := 1 }, { id := 1 }] (storeOf { id := 1 })
        () history
        (.ok report) stored () ∧ report.executed = 2 := by
  constructor
  · obtain ⟨history, runs⟩ :=
      runList_runs pairScheduler none [{ id := 1 }] (storeOf finishedTask) ()
    exact ⟨history, _, _, runs.widen Unreliable.Drifts (fun _ _ => False.elim), by rfl, by rfl⟩
  · obtain ⟨history, runs⟩ :=
      runList_runs pairScheduler none [{ id := 1 }, { id := 1 }] (storeOf { id := 1 }) ()
    exact ⟨history, _, _, runs.widen Unreliable.Drifts (fun _ _ => False.elim), by rfl⟩

end Scheduler
end CodeAudit
