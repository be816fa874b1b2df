import CodeAudit.Proofs.Scheduler.Briefings

/-! What the executor is told of a task's group. Whatever other workers write in the meantime, the
summarizer is given the finished siblings as the tasks before the one in hand have left them. -/
namespace CodeAudit

open TaskStore

/-- The task that is told of finished siblings, and those siblings. -/
def Act.told? : Act → Option (Task × List Task)
  | unbriefed task => some (task, [])
  | briefed task siblings _ => some (task, siblings)
  | _ => none

theorem Act.task_of_told {act : Act} {task : Task} {siblings : List Task}
    (told : act.told? = some (task, siblings)) : act.task? = some task := by
  cases act <;> simp_all [Act.told?, Act.task?]

variable {σ τ ε : Type} [TaskStore σ τ] [Lawful σ] {crew : Crew ε} {task : Task}
  {siblings : List Task} {act : Act} {summarize : Summarizer ε}

theorem read_siblings {store : σ} {group : Text} {found : List Task}
    (grouped : task.groupId = some group) (kept : keep σ group = group)
    (read : (finishedSiblings group store).value = .ok found) :
    found.filter (fun t => t.id ≠ task.id) = task.siblings (rows store) := by
  rcases (finishedSiblings_reads store group).2 with whole | ⟨_, fault, refused⟩
  · rw [whole, kept] at read
    obtain rfl := Except.ok.inj read
    exact siblings_group grouped
  · rw [refused] at read
    contradiction

namespace GroupRun
variable {run : GroupRun} {store stored : σ} {env outside : ε} {done : List Act}
  {progress : Progress}

/-- Siblings are handed on just as they are stored, if they can be read and there are any. -/
theorem Moves.briefing (moves : Moves crew run store env done progress stored outside)
    (stage : run.stage = .briefing task) (summarizer : crew.summarizer = some summarize)
    (kept : ∀ group, task.groupId = some group → keep σ group = group) :
    (∃ group fault, task.groupId = some group ∧
      (finishedSiblings group store).value = .error fault ∧
      done = [.settled task fault.state]) ∨
    (task.siblings (rows store) = [] ∧ done = [.unbriefed task]) ∨
    (task.siblings (rows store) ≠ [] ∧ ∃ rest, (∀ act ∈ rest, Act.told? act = none) ∧
      done = .briefed task (task.siblings (rows store))
        (summarize (task.siblings (rows store)) env).value ::
        rest) := by
  cases moves with
  | unbriefed own none =>
    obtain rfl := GroupRun.Stage.briefing.inj (own.symm.trans stage)
    rw [summarizer] at none
    exact .inr (.inl ⟨siblings_none (none.resolve_left nofun), rfl⟩)
  | unread own _ grouped refused =>
    obtain rfl := GroupRun.Stage.briefing.inj (own.symm.trans stage)
    exact .inl ⟨_, _, grouped, refused, rfl⟩
  | first own _ grouped read none =>
    obtain rfl := GroupRun.Stage.briefing.inj (own.symm.trans stage)
    rw [read_siblings grouped (kept _ grouped) read] at none
    exact .inr (.inl ⟨none, rfl⟩)
  | brief own known grouped read others some answer =>
    obtain rfl := GroupRun.Stage.briefing.inj (own.symm.trans stage)
    obtain rfl := Option.some.inj (known.symm.trans summarizer)
    rw [read_siblings grouped (kept _ grouped) read] at others
    subst others
    exact .inr (.inr ⟨some, [], by simp, by rw [answer]⟩)
  | @misbrief _ _ _ _ _ fault own known grouped read others some answer =>
    obtain rfl := GroupRun.Stage.briefing.inj (own.symm.trans stage)
    obtain rfl := Option.some.inj (known.symm.trans summarizer)
    rw [read_siblings grouped (kept _ grouped) read] at others
    subst others
    exact .inr (.inr ⟨some, [.settled _ fault.state], by simp [Act.told?], by rw [answer]⟩)
  | finish own _ | skip own _ _ | turnDown own _ _ _ | accept own _ _ _ | abort own _ _ _
  | call own | late own _
  | refuse own _ _ | blank own _ _ | answer own _ _ _ | save own _ | unsaved own _ =>
    rw [own] at stage
    contradiction

omit [Lawful σ] in
theorem Moves.tells (moves : Moves crew run store env done progress stored outside)
    (member : act ∈ done) (told : act.told? = some (task, siblings)) :
    run.stage = .briefing task := by
  cases moves with
  | unbriefed own _ | first own _ _ _ _ | brief own _ _ _ _ _ _ =>
    rw [List.mem_singleton.mp member] at told
    exact (Prod.mk.inj (Option.some.inj told)).1 ▸ own
  | misbrief own _ _ _ _ _ _ =>
    rcases List.mem_cons.mp member with rfl | member
    · exact (Prod.mk.inj (Option.some.inj told)).1 ▸ own
    · rw [List.mem_singleton.mp member] at told
      contradiction
  | finish _ _ => contradiction
  | _ =>
    simp only [List.mem_cons, List.not_mem_nil, or_false] at member
    rcases member with rfl | rfl <;> contradiction

/-- What is told of siblings is what is stored of them. -/
theorem Moves.told (moves : Moves crew run store env done progress stored outside)
    (summarizer : crew.summarizer = some summarize)
    (kept : ∀ group, task.groupId = some group → keep σ group = group) (member : act ∈ done)
    (told : act.told? = some (task, siblings)) : siblings = task.siblings (rows store) := by
  rcases moves.briefing (moves.tells member told) summarizer kept with
    ⟨_, _, _, _, rfl⟩ | ⟨none, rfl⟩ | ⟨_, rest, silent, rfl⟩
  · rw [List.mem_singleton.mp member] at told
    contradiction
  · rw [List.mem_singleton.mp member] at told
    exact none ▸ (Prod.mk.inj (Option.some.inj told)).2.symm
  · rcases List.mem_cons.mp member with rfl | member
    · exact (Prod.mk.inj (Option.some.inj told)).2.symm
    · rw [silent act member] at told
      contradiction

end GroupRun

namespace WorkerPool

omit [Lawful σ] in
theorem acts_busy {pool : WorkerPool σ ε} {i : Nat} {worker : Worker} {run : GroupRun}
    (found : pool.workers[i]? = some worker) (busy : worker.stage = .busy run) :
    pool.acts crew i = run.acts crew pool.store pool.env := by
  simp [acts, found, busy]

variable {tasks : List Task} {groups : List TaskGroup} {count i : Nat} {history : History}
  {pool after : WorkerPool σ ε} {drift : σ → σ → Prop} {store : σ} {env : ε}

/-- Whatever has been told of siblings in a run so far, the tasks before had left them so. -/
theorem Reaches.told (loaded : Loaded store tasks) (splits : TaskGroup.Splits tasks groups)
    (path : Reaches crew drift (start store env (Scheduler.fullQueue groups) count) history pool)
    (drifts : ∀ before after, drift before after → rows after = rows before)
    (summarizer : crew.summarizer = some summarize) (member : (i, act) ∈ history)
    (told : act.told? = some (task, siblings)) :
    siblings = finishedBefore (keep σ) (rows store) tasks history.fates task := by
  have listed := path.stands.listed splits member (Act.task_of_told told)
  obtain ⟨earlier, before, later, reached, taken, split⟩ := path.origin member
  obtain ⟨worker, run, _, _, _, found, busy, moves⟩ :=
    (step_moves crew before i).working taken (Act.task_of_told told)
  obtain rfl := moves.told summarizer (loaded.grouped task listed) taken told
  have stage := moves.tells taken told
  have grows : earlier.fates.Sublist history.fates := by
    rw [split, List.append_assoc, History.fates_append]
    exact List.sublist_append_left _ _
  exact path.stands.reads_finished loaded reached drifts splits grows found busy
    (by rw [stage]; rfl)

end WorkerPool

namespace Scheduler
variable {backend : Backend}

/-- What the executor is told in a run so far, by the rows of before and the tasks of the run. -/
structure Informed (before : backend.Store) (tasks : List Task) (history : History) : Prop where
  briefed : ∀ i task siblings summary, (i, .briefed task siblings summary) ∈ history →
    siblings ≠ [] ∧ siblings = finishedBefore (keep backend.Store) (rows before) tasks
      history.fates task
  /-- Without siblings the summarizer is left alone. -/
  called : ∀ (earlier : History) later i task summary,
    history = earlier ++ (i, .called task summary) :: later →
    let siblings := finishedBefore (keep backend.Store) (rows before) tasks history.fates task
    (siblings = [] → summary = none) ∧
      (siblings ≠ [] → (i, .briefed task siblings (.ok summary)) ∈ earlier)
  members : ∀ task told, told ∈ finishedBefore (keep backend.Store) (rows before) tasks
    history.fates task ↔
    ∃ row ∈ rows before, row.groupId.isSome ∧ row.groupId = task.groupId ∧ row.id ≠ task.id ∧
      ((row.isDone = true ∧ told = row) ∨ ∃ result, (row, .succeeded result) ∈ history.fates ∧
        row ∈ preceding tasks task ∧ told = { row with result })
  /-- A task of the run that has met any other end, or comes later, is not among them. -/
  excluded : ∀ task told other fate,
    told ∈ finishedBefore (keep backend.Store) (rows before) tasks history.fates task →
    (other, fate) ∈ history.fates → other.id = told.id →
    fate = .done ∨ ∃ result, fate = .succeeded result ∧ other ∈ preceding tasks task
  ordered : ∀ task,
    (finishedBefore (keep backend.Store) (rows before) tasks history.fates task).Pairwise
    (fun first second => first.id < second.id)

variable {ε : Type} {scheduler : Scheduler ε} {filter : Option (Filter ε)}
  {summarize : Summarizer ε} {store : Unreliable backend.Store} {env : ε} {tasks : List Task}
  {history : History} {pool : WorkerPool (Unreliable backend.Store) ε}

theorem reaches_informed (summaries : scheduler.crew.summarizer = some summarize)
    (plain : backend = .table → ∀ task briefing env result,
      (scheduler.crew.executor task briefing env).value.answer = .ok result → 0 ∉ result)
    (small : backend = .table → ∀ row ∈ rows store.store, row.id.toNat < 2 ^ 63)
    (tidy : backend.Tidy (rows store.store)) (loaded : Loaded store tasks)
    (path : WorkerPool.Reaches (scheduler.crewWith filter) Unreliable.Drifts
      (scheduler.pool (TaskGroup.partition tasks) store env) history pool) :
    Informed store.store tasks history := by
  have splits := TaskGroup.partition_splits tasks
  have stands := path.stands
  have known (told) (met : told ∈ history.fates) : told.1 ∈ rows store.store :=
    loaded.listed.subset (stands.fates_known splits met)
  have once := stands.fate_ids_once splits loaded.ids
  have told {i act task siblings} (member : (i, act) ∈ history)
      (told : act.told? = some (task, siblings)) :=
    path.told loaded splits (fun _ _ => Unreliable.rows_drifts) summaries member told
  have distinct : ((rows store.store).map Task.id).Nodup := loaded.distinct
  have fresh (row result) (met : (row, .succeeded result) ∈ history.fates) :
      row.isDone = false ∧ keep backend.Store result = result ∧ result ≠ [] := by
    obtain ⟨nonempty, i, summary, env, _, _, _, answer⟩ := stands.answered met
    refine ⟨?_, Backend.keep_plain (fun isTable => plain isTable _ _ _ _ answer), nonempty⟩
    simpa using mt (stands.fate_done met).mpr nofun
  refine ⟨?_, ?_, fun task told => mem_finishedBefore distinct known once fresh, ?_, fun task => ?_⟩
  · intro i task siblings summary member
    obtain ⟨before, later, split⟩ := List.append_of_mem member
    exact ⟨(stands.follows split).1, told member rfl⟩
  · intro earlier later i task summary split siblings
    obtain ⟨_, _, _, informed⟩ := stands.follows split
    have heard {act} (own : act ∈ earlier.own i) : (i, act) ∈ history :=
      split ▸ List.mem_append_left _ (History.mem_own.mp own)
    rcases informed with ⟨given, briefed⟩ | ⟨none, unbriefed⟩
    · obtain rfl : given = siblings := told (heard briefed) rfl
      refine ⟨fun none => absurd none ?_, fun _ => History.mem_own.mp briefed⟩
      obtain ⟨before, later, split⟩ := List.append_of_mem (heard briefed)
      exact (stands.follows split).1
    · have empty : [] = siblings := told (heard unbriefed) rfl
      exact ⟨fun _ => none, fun some => absurd empty.symm some⟩
  · intro task told other fate listed met same
    obtain ⟨row, inside, _, _, _, ⟨done, rfl⟩ | ⟨result, success, before, rfl⟩⟩ :=
      (mem_finishedBefore distinct known once fresh).mp listed
    · obtain rfl := List.inj_on_of_nodup_map loaded.distinct (known _ met) inside same
      exact .inl ((stands.fate_done met).mpr done)
    · obtain ⟨rfl, rfl⟩ := Prod.mk.inj (List.inj_on_of_nodup_map once met success same)
      exact .inr ⟨result, rfl, before⟩
  · exact finishedBefore_ordered (tidy.ordered small)

/-- Whatever became of earlier tasks and however the workers' steps interleave, a task that is about
to be executed comes with the siblings that are stored with a result at that moment, which are those
that the run has left it. -/
theorem summaries_exact {backend : Backend} (scheduler : Scheduler ε) (filter : Option (Filter ε))
    {summarize : Summarizer ε} (summaries : scheduler.crew.summarizer = some summarize)
    (plain : backend = .table → ∀ task briefing env result,
      (scheduler.crew.executor task briefing env).value.answer = .ok result → 0 ∉ result)
    (project : Text) (store : Unreliable backend.Store) (env : ε)
    (tidy : backend.Tidy (rows store.store))
    (small : backend = .table → ∀ row ∈ rows store.store, row.id.toNat < 2 ^ 63) :
    let crew := scheduler.crewWith filter
    let tasks := (rows store.store).filter (fun t => t.projectId = keep backend.Store project)
    (∀ history pool, WorkerPool.Reaches crew Unreliable.Drifts
        (scheduler.pool (TaskGroup.partition tasks) store env) history pool →
      Informed store.store tasks history ∧
      pool.env = (history.map Prod.snd).foldl (Act.ask crew) env ∧
      ∀ (i : Nat) worker run task, pool.workers[i]? = some worker → worker.stage = .busy run →
        run.stage = .briefing task →
        let siblings := finishedBefore (keep backend.Store) (rows store.store) tasks
          history.fates task
        task.siblings (rows pool.store.store) = siblings ∧
        ((∀ group fault, task.groupId = some group →
          (finishedSiblings group pool.store).value ≠ .error fault) →
          (pool.acts crew i).head? = some (if siblings = [] then .unbriefed task else
            .briefed task siblings (summarize siblings pool.env).value))) ∧
    ∀ history answer stored outside,
      scheduler.ProjectRuns filter Unreliable.Drifts project store env history answer
        stored outside →
      Informed store.store tasks history := by
  intro crew tasks
  have loaded : Loaded store tasks := .unreliable (tidy.loaded _)
  have splits := TaskGroup.partition_splits tasks
  have informed {history pool} (path : WorkerPool.Reaches crew Unreliable.Drifts
      (scheduler.pool (TaskGroup.partition tasks) store env) history pool) :
        Informed store.store tasks history :=
    reaches_informed summaries plain small tidy loaded path
  refine ⟨fun history pool path => ⟨informed path, path.asked, ?_⟩, ?_⟩
  · intro i worker run task found busy stage siblings
    have hand : run.stage.task? = some task := by rw [stage]; rfl
    have reads : task.siblings (rows pool.store) = siblings :=
      path.stands.reads_finished loaded path (fun _ _ => Unreliable.rows_drifts) splits (.refl _)
        found busy hand
    refine ⟨reads, fun readable => ?_⟩
    rw [WorkerPool.acts_busy found busy]
    have kept :=
      loaded.grouped task (path.stands.inHand_listed splits (.of_map _ loaded.ids) found busy hand)
    rcases (run.step_moves crew pool.store pool.env).briefing stage summaries kept with
      ⟨group, fault, grouped, refused, _⟩ | ⟨none, acts⟩ | ⟨some, rest, _, acts⟩
    · exact absurd refused (readable group fault grouped)
    · rw [acts, List.head?_cons, if_pos (reads.symm.trans none)]
    · rw [acts, List.head?_cons, reads, if_neg (reads ▸ some)]
  · intro history answer stored outside runs
    obtain ⟨state, value⟩ := projectTasks_reads store project
    cases runs with
    | unread _ => exact informed .refl
    | @read found _ _ _ _ read runs =>
      rcases value with whole | ⟨_, fault, refused⟩
      · obtain rfl : tasks = found := Except.ok.inj (whole.symm.trans read)
        rw [state] at runs
        obtain ⟨pool, path, _⟩ := runs.reached
        exact informed path
      · rw [refused] at read
        contradiction

/-- Somebody who also wants summaries. -/
def pairBriefer : Scheduler Unit :=
  { pairScheduler with
    crew := { pairScheduler.crew with
      summarizer := some (fun _ env => { value := .ok (some (utf8 "seen")), state := env }) } }

theorem summaries_exact_pair : ∃ history answer stored outside,
    pairBriefer.ProjectRuns none Unreliable.Drifts [] pairStore () history answer stored outside ∧
      Informed pairStore.store pair history := by
  obtain ⟨history, runs⟩ := runProject_runs pairBriefer none pairStore () []
  have widened := runs.widen Unreliable.Drifts (fun _ _ => False.elim)
  have tidy : pair.Pairwise (fun first second => first.id < second.id) := by decide
  have exact :=
    (@summaries_exact Unit .memory pairBriefer none _ rfl (fun table => nomatch table) []
      pairStore () tidy
    (fun table => nomatch table)).2 _ _ _ _ widened
  exact ⟨history, _, _, _, widened, exact⟩

end Scheduler
end CodeAudit
