import CodeAudit.Proofs.Scheduler.Acts

/-! Everything that one step can do, said once: what a group's run does to its task in hand, and
what a worker does to the pool. Invariants are read off these cases and not off the steps
themselves. -/
namespace CodeAudit

namespace GroupRun
variable {σ τ ε : Type} [TaskStore σ τ]

/-- A step of a group's run: its acts, what becomes of the run, and the store and the outside it
leaves. -/
inductive Moves (crew : Crew ε) (run : GroupRun) (store : σ) (env : ε) :
    List Act → Progress → σ → ε → Prop where
  | finish : run.stage = .deciding → run.waiting = [] →
      Moves crew run store env [] (.finished run.report) store env
  | skip : run.stage = .deciding → run.waiting = task :: rest → task.isDone = true →
      Moves crew run store env [.skipped task] (.running (run.skipDone task rest)) store env
  | turnDown : run.stage = .deciding → run.waiting = task :: rest → task.isDone = false →
      crew.judge task env = (.ok false, env') →
      Moves crew run store env [.judged task (.ok false)] (.running (run.skipFiltered task rest))
        store env'
  | accept : run.stage = .deciding → run.waiting = task :: rest → task.isDone = false →
      crew.judge task env = (.ok true, env') →
      Moves crew run store env [.judged task (.ok true)] (.running (run.accept task rest))
        store env'
  | abort : run.stage = .deciding → run.waiting = task :: rest → task.isDone = false →
      crew.judge task env = (.error fault, env') →
      Moves crew run store env [.judged task (.error fault)] (.aborted fault) store env'
  | unbriefed : run.stage = .briefing task → crew.summarizer = none ∨ task.groupId = none →
      Moves crew run store env [.unbriefed task]
        (.running { run with stage := .launching task none }) store env
  | unread : run.stage = .briefing task → crew.summarizer = some summarize →
      task.groupId = some group →
      (TaskStore.finishedSiblings group store).value = .error fault →
      Moves crew run store env [.settled task fault.state] (.running (run.settle task fault).1)
        (TaskStore.finishedSiblings group store).state env
  | first : run.stage = .briefing task → crew.summarizer = some summarize →
      task.groupId = some group →
      (TaskStore.finishedSiblings group store).value = .ok done →
      done.filter (fun t => t.id ≠ task.id) = [] →
      Moves crew run store env [.unbriefed task]
        (.running { run with stage := .launching task none })
        (TaskStore.finishedSiblings group store).state env
  | brief : run.stage = .briefing task → crew.summarizer = some summarize →
      task.groupId = some group →
      (TaskStore.finishedSiblings group store).value = .ok done →
      done.filter (fun t => t.id ≠ task.id) = siblings → siblings ≠ [] →
      (summarize siblings env).value = .ok text →
      Moves crew run store env [.briefed task siblings (.ok text)]
        (.running { run with stage := .launching task text })
        (TaskStore.finishedSiblings group store).state (summarize siblings env).state
  | misbrief : run.stage = .briefing task → crew.summarizer = some summarize →
      task.groupId = some group →
      (TaskStore.finishedSiblings group store).value = .ok done →
      done.filter (fun t => t.id ≠ task.id) = siblings → siblings ≠ [] →
      (summarize siblings env).value = .error fault →
      Moves crew run store env [.briefed task siblings (.error fault), .settled task fault.state]
        (.running (run.settle task fault).1)
        (TaskStore.finishedSiblings group store).state (summarize siblings env).state
  | call : run.stage = .launching task summary →
      Moves crew run store env [.called task summary]
        (.running { run with
          stage := .awaiting task (crew.executor task { groupSummary := summary } env).value })
        store (crew.executor task { groupSummary := summary } env).state
  | late : run.stage = .awaiting task call → isLate crew.limit call.span = true →
      Moves crew run store env [.returned task call, .settled task .requeued]
        (.running (run.settle task (.deadlinePassed task.id crew.limit)).1) store env
  | refuse : run.stage = .awaiting task call → isLate crew.limit call.span = false →
      call.answer = .error fault →
      Moves crew run store env [.returned task call, .settled task fault.state]
        (.running (run.settle task fault).1) store env
  | blank : run.stage = .awaiting task call → isLate crew.limit call.span = false →
      call.answer = .ok [] →
      Moves crew run store env [.returned task call, .settled task .failed]
        (.running (run.settle task .emptyResult).1) store env
  | answer : run.stage = .awaiting task call → isLate crew.limit call.span = false →
      call.answer = .ok result → result ≠ [] →
      Moves crew run store env [.returned task call]
        (.running { run with stage := .saving task result }) store env
  | save : run.stage = .saving task result →
      (TaskStore.saveResult task.id result store).value = .ok () →
      Moves crew run store env [.committed task result, .settled task .succeeded]
        (.running (run.succeed task result).1) (TaskStore.saveResult task.id result store).state env
  | unsaved : run.stage = .saving task result →
      (TaskStore.saveResult task.id result store).value = .error fault →
      Moves crew run store env [.settled task fault.state] (.running (run.settle task fault).1)
        (TaskStore.saveResult task.id result store).state env

variable (crew : Crew ε) (run : GroupRun) (store : σ) (env : ε)

/-- The cases are all there are, and each step is one of them with its acts. -/
theorem step_moves : Moves crew run store env (run.acts crew store env)
    (run.step crew store env).value
    (run.step crew store env).state.1 (run.step crew store env).state.2 := by
  rcases stage : run.stage with _ | task | ⟨task, summary⟩ | ⟨task, call⟩ | ⟨task, result⟩
  · rcases waiting : run.waiting with _ | ⟨task, rest⟩
    · simp only [acts, step, consider, stage, waiting]
      exact .finish stage waiting
    cases done : task.isDone with
    | true =>
      simp only [acts, step, consider, stage, waiting, done, if_true, reply]
      exact .skip stage waiting done
    | false =>
      rcases judged : crew.judge task env with ⟨fault | _ | _, after⟩
      all_goals simp only [acts, step, consider, stage, waiting, done, judged, Bool.false_eq_true,
        if_false, reply]
      · exact .abort stage waiting done judged
      · exact .turnDown stage waiting done judged
      · exact .accept stage waiting done judged
  · rcases summarizer : crew.summarizer with _ | summarize
    · simp only [acts, step, brief, stage, summarizer, reply]
      exact .unbriefed stage (.inl summarizer)
    rcases grouped : task.groupId with _ | group
    · simp only [acts, step, brief, stage, summarizer, grouped, reply]
      exact .unbriefed stage (.inr grouped)
    rcases read : (TaskStore.finishedSiblings group store).value with fault | done
    · simp only [acts, step, brief, stage, summarizer, grouped, read, reply]
      exact .unread stage summarizer grouped read
    rcases others : done.filter (fun t => t.id ≠ task.id) with _ | ⟨sibling, siblings⟩
    · simp only [acts, step, brief, stage, summarizer, grouped, read, others, reply]
      exact .first stage summarizer grouped read others
    rcases summary : (summarize (sibling :: siblings) env).value with fault | text
    all_goals simp only [acts, step, brief, stage, summarizer, grouped, read, others,
      summary, reply]
    · exact .misbrief stage summarizer grouped read others (List.cons_ne_nil _ _) summary
    · exact .brief stage summarizer grouped read others (List.cons_ne_nil _ _) summary
  · simp only [acts, step, launch, stage, reply]
    exact .call stage
  · cases late : isLate crew.limit call.span with
    | true =>
      simp only [acts, step, await, stage, late, if_true, reply]
      exact .late stage late
    | false =>
      rcases answer : call.answer with fault | _ | ⟨byte, rest⟩
      all_goals simp only [acts, step, await, stage, late, answer, Bool.false_eq_true,
        if_false, reply]
      · exact .refuse stage late answer
      · exact .blank stage late answer
      · exact .answer stage late answer (List.cons_ne_nil _ _)
  · rcases saved : (TaskStore.saveResult task.id result store).value with fault | ⟨⟩
    all_goals simp only [acts, step, save, stage, saved, reply]
    · exact .unsaved stage saved
    · exact .save stage saved

end GroupRun

/-- What an act makes of the outside: the filter, the summarizer or the executor has been asked. -/
def Act.ask {ε : Type} (crew : Crew ε) (env : ε) : Act → ε
  | judged task _ => (crew.judge task env).2
  | briefed _ siblings _ =>
      match crew.summarizer with
      | some summarize => (summarize siblings env).state
      | none => env
  | called task groupSummary => (crew.executor task { groupSummary } env).state
  | _ => env

/-- The outside is asked just what the acts tell. -/
theorem GroupRun.Moves.asked {σ τ ε : Type} [TaskStore σ τ] {crew : Crew ε} {run : GroupRun}
    {store stored : σ} {env outside : ε} {done : List Act} {progress : Progress}
    (moves : Moves crew run store env done progress stored outside) :
    outside = done.foldl (Act.ask crew) env := by
  cases moves with
  | turnDown _ _ _ judged | accept _ _ _ judged | abort _ _ _ judged => simp [Act.ask, judged]
  | brief _ summarizer | misbrief _ summarizer => simp [Act.ask, summarizer]
  | _ => rfl

namespace WorkerPool
variable {σ τ ε : Type} [TaskStore σ τ]

/-- The pool with another stage and report of one of its workers, and with whatever it logged. -/
def Replaces (pool after : WorkerPool σ ε) (i : Nat) (worker : Worker) (store : σ) (env : ε)
    (queue : GroupQueue) : Prop :=
  after.workers = pool.workers.set i worker ∧ after.store = store ∧ after.env = env ∧
    after.queue = queue

/-- A step of the worker at an index: its acts and the pool it leaves. -/
inductive Moves (crew : Crew ε) (pool : WorkerPool σ ε) (i : Nat) :
    List Act → WorkerPool σ ε → Prop where
  | absent : pool.workers[i]? = none → Moves crew pool i [] pool
  | rest : pool.workers[i]? = some worker → worker.stage = .finished → Moves crew pool i [] pool
  | wait : pool.workers[i]? = some worker → worker.stage = .idle → pool.queue.waiting = [] →
      pool.queue.closed = false → Moves crew pool i [] pool
  | leave : pool.workers[i]? = some worker → worker.stage = .idle → pool.queue.waiting = [] →
      pool.queue.closed = true →
      pool.Replaces after i { worker with stage := .finished } pool.store pool.env pool.queue →
      Moves crew pool i [] after
  | take : pool.workers[i]? = some worker → worker.stage = .idle →
      pool.queue.waiting = group :: groups →
      pool.Replaces after i { worker with stage := .busy (.start group) } pool.store pool.env
        { pool.queue with waiting := groups } →
      Moves crew pool i [.took group] after
  | work : pool.workers[i]? = some worker → worker.stage = .busy current →
      current.Moves crew pool.store pool.env done (.running next) stored outside →
      pool.Replaces after i { worker with stage := .busy next } stored outside pool.queue →
      Moves crew pool i done after
  | finish : pool.workers[i]? = some worker → worker.stage = .busy current →
      current.Moves crew pool.store pool.env done (.finished ended) stored outside →
      pool.Replaces after i { stage := .idle, report := worker.report.merge ended } stored outside
        pool.queue →
      Moves crew pool i done after
  | abort : pool.workers[i]? = some worker → worker.stage = .busy current →
      current.Moves crew pool.store pool.env done (.aborted fault) stored outside →
      pool.Replaces after i { worker with stage := .idle } stored outside pool.queue →
      Moves crew pool i done after

theorem step_moves (crew : Crew ε) (pool : WorkerPool σ ε) (i : Nat) :
    Moves crew pool i (pool.acts crew i) (pool.step crew i) := by
  unfold acts step
  rcases found : pool.workers[i]? with _ | worker
  · exact .absent found
  simp only [Option.map_some]
  rcases stage : worker.stage with _ | run | _
  · unfold GroupQueue.dequeue
    rcases waiting : pool.queue.waiting with _ | ⟨group, groups⟩
    · cases closed : pool.queue.closed with
      | true => exact .leave found stage waiting closed ⟨rfl, rfl, rfl, rfl⟩
      | false => exact .wait found stage waiting closed
    · exact .take found stage waiting ⟨rfl, rfl, rfl, rfl⟩
  · have moved := run.step_moves crew pool.store pool.env
    unfold stepRun
    rcases progress : (run.step crew pool.store pool.env).value with next | report | fault
    all_goals rw [progress] at moved
    · exact .work found stage moved ⟨by simp [progress], rfl, rfl, rfl⟩
    · exact .finish found stage moved ⟨by simp [progress], rfl, rfl, rfl⟩
    · exact .abort found stage moved ⟨by simp [progress], rfl, rfl, rfl⟩
  · exact .rest found stage

/-- What is done about a task is done in a step of a group's run. -/
theorem Moves.working {crew : Crew ε} {pool after : WorkerPool σ ε} {i : Nat} {done : List Act}
    {act : Act} {task : Task} (moves : Moves crew pool i done after) (member : act ∈ done)
    (about : act.task? = some task) :
    ∃ worker : Worker, ∃ run progress stored outside, pool.workers[i]? = some worker ∧
      worker.stage = .busy run ∧
      run.Moves crew pool.store pool.env done progress stored outside := by
  cases moves with
  | absent _ | rest _ _ | wait _ _ _ _ | leave _ _ _ _ _ => contradiction
  | take _ _ _ _ =>
    rw [List.mem_singleton.mp member] at about
    contradiction
  | work found busy moves _ | finish found busy moves _ | abort found busy moves _ =>
    exact ⟨_, _, _, _, _, found, busy, moves⟩

/-- What each case of a step keeps, every interleaving keeps. -/
theorem Reaches.invariant {crew : Crew ε} {drift : σ → σ → Prop} {start pool : WorkerPool σ ε}
    {history : History} {P : History → WorkerPool σ ε → Prop}
    (path : Reaches crew drift start history pool) (initial : P [] start)
    (moves : ∀ {history pool i done after}, P history pool → Moves crew pool i done after →
      P (history ++ done.map (i, ·)) after)
    (drifts : ∀ {history pool changed}, P history pool → drift pool.store changed →
      P history { pool with store := changed }) : P history pool := by
  induction path with
  | refl => exact initial
  | step i _ ih => exact moves ih (step_moves crew _ i)
  | drift _ drifted ih => exact drifts ih drifted

/-- The outside has been asked what the history tells, in its order, and nothing else. -/
theorem Reaches.asked {crew : Crew ε} {drift : σ → σ → Prop} {start pool : WorkerPool σ ε}
    {history : History} (path : Reaches crew drift start history pool) :
    pool.env = (history.map Prod.snd).foldl (Act.ask crew) start.env := by
  refine path.invariant (P := fun history pool =>
    pool.env = (history.map Prod.snd).foldl (Act.ask crew) start.env)
    rfl ?_ (fun same _ => same)
  intro history pool i done after same moves
  have told : (done.map (i, ·)).map Prod.snd = done := by
    rw [List.map_map]
    exact List.map_id done
  rw [List.map_append, List.foldl_append, ← same, told]
  cases moves with
  | absent _ | rest _ _ | wait _ _ _ _ => rfl
  | leave _ _ _ _ replaces | take _ _ _ replaces => exact replaces.2.2.1
  | work _ _ moves replaces | finish _ _ moves replaces | abort _ _ moves replaces =>
    exact replaces.2.2.1.trans moves.asked

end WorkerPool
end CodeAudit
