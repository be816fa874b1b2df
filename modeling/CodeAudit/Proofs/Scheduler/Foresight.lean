import CodeAudit.Proofs.Scheduler.Summaries

/-! What becomes of a task, foreseen from its finished siblings. With collaborators that always say
the same of the same, no time limit and a store that refuses nothing, no interleaving makes a
difference to it. -/
namespace CodeAudit

open TaskStore

namespace Crew
variable {ε : Type}

/-- The filter, the summarizer and the executor are functions of what they are asked, and the filter
does not fail. -/
structure Functional (crew : Crew ε) : Prop where
  decides : crew.Decides
  judges : ∀ task first second, (crew.judge task first).1 = (crew.judge task second).1
  summarizes : ∀ summarize, crew.summarizer = some summarize → ∀ siblings first second,
    (summarize siblings first).value = (summarize siblings second).value
  answers : ∀ task briefing first second,
    (crew.executor task briefing first).value.answer =
      (crew.executor task briefing second).value.answer

def summary (crew : Crew ε) (env : ε) (siblings : List Task) : Except Fault (Option Text) :=
  match crew.summarizer with
  | some summarize => if siblings = [] then .ok none else (summarize siblings env).value
  | none => .ok none

def fateOf : Except Fault Text → Fate
  | .error fault => fault.fate
  | .ok [] => .failed
  | .ok result => .succeeded result

def outlook (crew : Crew ε) (env : ε) (siblings : List Task) : GroupRun.Stage → Option Fate
  | .deciding => none
  | .briefing task =>
      match crew.summary env siblings with
      | .error fault => some fault.fate
      | .ok groupSummary => some (fateOf (crew.executor task { groupSummary } env).value.answer)
  | .launching task groupSummary =>
      some (fateOf (crew.executor task { groupSummary } env).value.answer)
  | .awaiting _ call => some (fateOf call.answer)
  | .saving _ result => some (.succeeded result)

def foreseen (crew : Crew ε) (env : ε) (siblings : List Task) (task : Task) : Option Fate :=
  if task.isDone then some .done
  else
    match (crew.judge task env).1 with
    | .ok true => crew.outlook env siblings (.briefing task)
    | _ => some .turnedDown

end Crew

section Foresight
variable {ε : Type} {crew : Crew ε} {task : Task} {siblings : List Task}

theorem Crew.fateOf_result {result : Text} (nonempty : result ≠ []) :
    fateOf (.ok result) = .succeeded result := by
  cases result with
  | nil => contradiction
  | cons byte rest => rfl

theorem GroupRun.isLate_unlimited (unlimited : crew.limit ≤ 0) (span : CallSpan) :
    isLate crew.limit span = false := by
  cases span <;> simp [isLate, Int.not_lt.mpr unlimited]

/-- What lies ahead of a task in hand is what was foreseen for it. -/
theorem Opening.foreseen {stage : GroupRun.Stage} {opening : List Act}
    (functional : crew.Functional) (env : ε) (opened : Opening crew task stage opening)
    (heard : crew.summarizer.isSome → ∀ act ∈ opening, ∀ told, act.told? = some (task, told) →
      told = siblings) :
    crew.foreseen env siblings task = crew.outlook env siblings stage := by
  induction opened with
  | accepted undone judged =>
    rw [functional.judges task _ env] at judged
    simp [Crew.foreseen, undone, judged]
  | alone opened ih =>
    have before := ih (fun some act member => heard some act (List.mem_append_left _ member))
    have none : crew.summary env siblings = .ok none := by
      unfold Crew.summary
      split
      next summarize known =>
        have empty := heard (by simp [known]) (.unbriefed task)
          (List.mem_append_right _ List.mem_cons_self) [] rfl
        rw [if_pos empty.symm]
      next => rfl
    rw [before]
    simp only [Crew.outlook, none]
  | @briefed acts told summarize asked summary opened some known answer ih =>
    have before := ih (fun some act member => heard some act (List.mem_append_left _ member))
    have same : told = siblings := heard (by simp [known]) (.briefed task told (.ok summary))
      (List.mem_append_right _ List.mem_cons_self) told rfl
    have spoken : crew.summary env siblings = .ok summary := by
      rw [Crew.summary, known]
      simp only [← same, if_neg some, functional.summarizes summarize known told env asked, answer]
    rw [before]
    simp only [Crew.outlook, spoken]
  | called asked opened ih =>
    have before := ih (fun some act member => heard some act (List.mem_append_left _ member))
    rw [before]
    simp only [Crew.outlook, functional.answers task _ env asked]
  | answered opened _ answer nonempty ih =>
    have before := ih (fun some act member => heard some act (List.mem_append_left _ member))
    rw [before]
    simp only [Crew.outlook, answer, Crew.fateOf_result nonempty]

variable {σ τ : Type} [TaskStore σ τ] [Lawful σ]

/-- A fate that is met in a step is the one that was foreseen. -/
theorem GroupRun.Moves.foreseen {run : GroupRun} {store stored : σ} {outside actual env : ε}
    {done : List Act} {progress : Progress} {act : Act} {fate : Fate}
    (moves : Moves crew run store actual done progress stored outside)
    (functional : crew.Functional) (unlimited : crew.limit ≤ 0) (fit : Fit store)
    (present : ∃ row ∈ rows store, row.id = task.id)
    (ahead : run.stage.task? = some task →
      crew.foreseen env siblings task = crew.outlook env siblings run.stage)
    (heard : ∀ told summary, .briefed task told summary ∈ done → told = siblings)
    (member : act ∈ done) (sealed : act.fate? = some (task, fate)) :
    crew.foreseen env siblings task = some fate := by
  have met : (task, fate) ∈ fatesOf done := List.mem_filterMap.mpr ⟨act, member, sealed⟩
  cases moves with
  | finish _ _ | accept _ _ _ _ | abort _ _ _ _ | unbriefed _ _ | first _ _ _ _ _
  | brief _ _ _ _ _ _ _ | call _
  | answer _ _ _ _ => simp [Act.fate?] at met
  | @skip other rest _ _ isDone =>
    obtain ⟨rfl, rfl⟩ : task = other ∧ fate = .done := by simpa [Act.fate?] using met
    simp [Crew.foreseen, isDone]
  | @turnDown other rest _ _ _ undone judged =>
    obtain ⟨rfl, rfl⟩ : task = other ∧ fate = .turnedDown := by simpa [Act.fate?] using met
    have verdict : (crew.judge task env).1 = .ok false := by
      rw [functional.judges task env actual, judged]
    simp [Crew.foreseen, undone, verdict]
  | @unread other _ group fault stage _ _ refused =>
    rcases (finishedSiblings_reads store group).2 with read | ⟨unfit, _⟩
    · rw [read] at refused
      contradiction
    · exact absurd fit unfit
  | @misbrief other summarize group found told fault stage known _ _ _ some failed =>
    obtain ⟨rfl, rfl⟩ : task = other ∧ fate = fault.fate := by simpa using met
    obtain rfl := heard told _ List.mem_cons_self
    rw [ahead (by rw [stage]; rfl), stage]
    have spoken : crew.summary env told = .error fault := by
      rw [Crew.summary, known]
      simp only [if_neg some, functional.summarizes summarize known told env actual, failed]
    simp only [Crew.outlook, spoken]
  | @late other call _ late =>
    rw [isLate_unlimited unlimited call.span] at late
    contradiction
  | @refuse other call fault stage _ answer =>
    obtain ⟨rfl, rfl⟩ : task = other ∧ fate = fault.fate := by simpa using met
    rw [ahead (by rw [stage]; rfl), stage]
    simp only [Crew.outlook, answer, Crew.fateOf]
  | @blank other call stage _ answer =>
    obtain ⟨rfl, rfl⟩ : task = other ∧ fate = .failed := by simpa [Act.fate?] using met
    rw [ahead (by rw [stage]; rfl), stage]
    simp only [Crew.outlook, answer, Crew.fateOf]
  | @save other result stage _ =>
    obtain ⟨rfl, rfl⟩ : task = other ∧ fate = .succeeded result := by simpa [Act.fate?] using met
    rw [ahead (by rw [stage]; rfl), stage]
    rfl
  | @unsaved other result fault stage refused =>
    obtain ⟨rfl, rfl⟩ : task = other ∧ fate = fault.fate := by simpa using met
    rcases saveResult_writes store task.id result with ⟨saved, _⟩ | ⟨_, _, absent⟩
    · rw [saved] at refused
      contradiction
    · obtain ⟨row, inside, same⟩ := present
      exact absurd same (absent fit row inside)

end Foresight

namespace WorkerPool
variable {σ τ ε : Type} [TaskStore σ τ] {crew : Crew ε} {tasks : List Task}
  {groups : List TaskGroup} {count i : Nat} {history : History} {pool : WorkerPool σ ε}
  {task : Task} {fate : Fate}

/-- A task in hand was opened by the worker that has it. -/
theorem Stands.opened (stands : Stands crew groups count history pool) {worker : Worker}
    {run : GroupRun} (found : pool.workers[i]? = some worker) (busy : worker.stage = .busy run)
    (hand : run.stage.task? = some task) :
    ∃ opening, Opening crew task run.stage opening ∧ ∀ act ∈ opening, (i, act) ∈ history := by
  obtain ⟨past, group, told, opening, _, opened, _, own⟩ := stands.within found busy hand
  refine ⟨opening, opened, fun act member => History.mem_own.mp (own ▸ ?_)⟩
  exact List.mem_append_right _ (List.mem_cons_of_mem _ (List.mem_append_right _ member))

variable [Lawful σ] {store : σ} {start env : ε}

/-- While nothing else writes to a store, it changes by the run's results alone. -/
theorem Reaches.stored_steady
    (path : Reaches crew Steady (WorkerPool.start store start (Scheduler.fullQueue groups) count)
      history pool) :
    pool.store = mapRows (amended (keep σ) history.fates) store :=
  path.stored id (fun _ _ => False.elim) (fun change _ _ same => congrArg (mapRows change) same)

theorem Reaches.foreseen (functional : crew.Functional) (unlimited : crew.limit ≤ 0)
    (fit : Fit store) (loaded : Loaded store tasks) (splits : TaskGroup.Splits tasks groups)
    (path : Reaches crew Steady (WorkerPool.start store start (Scheduler.fullQueue groups) count)
      history pool)
    (met : (task, fate) ∈ history.fates) (env : ε) :
    crew.foreseen env (finishedBefore (keep σ) (rows store) tasks history.fates task) task =
      some fate := by
  obtain ⟨i, act, member, sealed⟩ := History.mem_fates.mp met
  obtain ⟨earlier, before, later, reached, taken, split⟩ := path.origin member
  obtain ⟨worker, run, _, _, _, found, busy, moves⟩ :=
    (step_moves crew before i).working taken (Act.task_of_fate sealed)
  have steady : ∀ before after : σ, Steady before after → rows after = rows before :=
    fun _ _ => False.elim
  have told {i act told} (asks : crew.summarizer.isSome) (member : (i, act) ∈ history)
      (tells : act.told? = some (task, told)) :
      told = finishedBefore (keep σ) (rows store) tasks history.fates task := by
    obtain ⟨summarize, known⟩ := Option.isSome_iff_exists.mp asks
    exact path.told loaded splits steady known member tells
  have listed := path.stands.listed splits member (Act.task_of_fate sealed)
  refine moves.foreseen functional unlimited ?_ ?_ (fun hand => ?_)
    (fun siblings summary briefed => ?_) taken sealed
  · rw [reached.stored_steady]
    exact Lawful.mapRows_fit _ fit
  · rw [reached.rows_amended steady]
    exact ⟨_, List.mem_map_of_mem (loaded.listed.subset listed), amended_id _ _ task⟩
  · obtain ⟨opening, opened, done⟩ := reached.stands.opened found busy hand
    refine opened.foreseen functional env (fun asks act inside siblings tells => ?_)
    refine told asks (i := i) ?_ tells
    rw [split, List.append_assoc]
    exact List.mem_append_left _ (done act inside)
  · have here : (i, .briefed task siblings summary) ∈ history := by
      rw [split]
      exact List.mem_append_left _ (List.mem_append_right _ (List.mem_map_of_mem briefed))
    refine told ?_ here rfl
    obtain ⟨first, rest, parts⟩ := List.append_of_mem here
    obtain ⟨_, summarize, _, known, _⟩ := path.stands.follows parts
    simp [known]

end WorkerPool
end CodeAudit
