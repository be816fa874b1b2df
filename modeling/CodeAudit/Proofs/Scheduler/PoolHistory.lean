import CodeAudit.Proofs.Scheduler.Standing

/-! What every interleaving keeps. Each worker's acts are whole runs of the groups it took, one
after another, and the groups handed out and those that still wait are the groups of the run in
their order. -/
namespace CodeAudit

namespace History
variable {history later : History} {done : List Act} {i j : Nat}

@[simp] theorem own_nil : own i [] = [] := rfl

@[simp] theorem own_append : own i (history ++ later) = own i history ++ own i later :=
  List.filterMap_append

@[simp] theorem own_same : own i (done.map (i, ·)) = done := by
  simp [own, List.filterMap_map]

theorem own_other (other : j ≠ i) : own j (done.map (i, ·)) = [] := by
  refine List.filterMap_eq_nil_iff.mpr (fun entry member => ?_)
  obtain ⟨act, _, rfl⟩ := List.mem_map.mp member
  exact if_neg (Ne.symm other)

theorem mem_own {act : Act} : act ∈ history.own i ↔ (i, act) ∈ history := by
  constructor
  · intro member
    obtain ⟨⟨worker, found⟩, inside, same⟩ := List.mem_filterMap.mp member
    simp only [Option.ite_none_right_eq_some, Option.some.injEq] at same
    obtain ⟨rfl, rfl⟩ := same
    exact inside
  · exact fun member => List.mem_filterMap.mpr ⟨_, member, if_pos rfl⟩

@[simp] theorem handed_append : handed (history ++ later) = handed history ++ handed later :=
  List.filterMap_append

theorem mem_handed {group : TaskGroup} : (i, group) ∈ history.handed ↔
    (i, .took group) ∈ history := by
  constructor
  · intro member
    obtain ⟨⟨worker, act⟩, inside, same⟩ := List.mem_filterMap.mp member
    cases act <;> simp [Act.group?] at same
    obtain ⟨rfl, rfl⟩ := same
    exact inside
  · exact fun member => List.mem_filterMap.mpr ⟨_, member, rfl⟩

end History

section Workers
variable {ε : Type}

/-- The acts of a worker over the groups it is done with, and its report of them. -/
inductive Tales (crew : Crew ε) : List Act → RunReport → Prop where
  | nil : Tales crew [] {}
  | whole : Tales crew acts report → Telling crew told → (fatesOf told).map Prod.fst = group.tasks →
      Tales crew (acts ++ .took group :: told) (report.merge (.ofFates 1 (fatesOf told)))
  /-- The filter failed at a task and the rest of the group was given up. -/
  | broken : Tales crew acts report → Telling crew told → task.isDone = false →
      (fatesOf told).map Prod.fst ++ task :: rest = group.tasks →
      crew.judge task before = (.error fault, after) →
      Tales crew (acts ++ .took group :: (told ++ [.judged task (.error fault)])) report

inductive Worker.Stands (crew : Crew ε) (worker : Worker) : List Act → Prop where
  | free : Tales crew acts worker.report → (∀ run, worker.stage ≠ .busy run) →
      Stands crew worker acts
  | busy : Tales crew acts worker.report → worker.stage = .busy run → run.Stands crew group told →
      Stands crew worker (acts ++ .took group :: told)

variable {crew : Crew ε} {worker : Worker} {own : List Act}

theorem Worker.Stands.told (stands : worker.Stands crew own)
    (free : ∀ run, worker.stage ≠ .busy run) :
    Tales crew own worker.report := by
  cases stands with
  | free tales _ => exact tales
  | busy _ stage _ => exact absurd stage (free _)

end Workers

namespace WorkerPool
variable {σ τ ε : Type} [TaskStore σ τ]

/-- What holds of a pool and its history at any time of a run over some groups. -/
structure Stands (crew : Crew ε) (groups : List TaskGroup) (count : Nat) (history : History)
    (pool : WorkerPool σ ε) : Prop where
  workers : pool.workers.length = count
  worker : ∀ i (worker : Worker), pool.workers[i]? = some worker →
    worker.Stands crew (history.own i)
  known : ∀ entry ∈ history, entry.1 < count
  handed : history.handed.map Prod.snd ++ pool.queue.waiting = groups
  closed : pool.queue.closed = true
  drained : ∀ worker ∈ pool.workers, worker.stage = .finished → pool.queue.waiting = []

variable {crew : Crew ε} {groups : List TaskGroup} {count : Nat} {history : History}
  {pool after : WorkerPool σ ε} {i : Nat} {done : List Act}

theorem start_stands (crew : Crew ε) (groups : List TaskGroup) (count : Nat) (store : σ) (env : ε) :
    Stands crew groups count [] (start store env (Scheduler.fullQueue groups) count) where
  workers := List.length_replicate
  worker := by
    intro i worker found
    obtain rfl := List.eq_of_mem_replicate (List.mem_of_getElem? found)
    exact .free .nil (by simp)
  known := by simp
  handed := rfl
  closed := rfl
  drained := by
    intro worker member finished
    obtain rfl := List.eq_of_mem_replicate member
    contradiction

/-- Only a worker before the queue takes a group. -/
theorem untaken {run : GroupRun} {store stored : σ} {env outside : ε} {progress : GroupRun.Progress}
    (moves : run.Moves crew store env done progress stored outside) (i : Nat) :
    History.handed (done.map (i, ·)) = [] := by
  cases moves <;> rfl

/-- One worker moves on and the others stay as they are. -/
theorem Stands.replace {worker : Worker} {stored : σ} {outside : ε} {queue : GroupQueue}
    (stands : Stands crew groups count history pool) (present : i < count)
    (replaces : pool.Replaces after i worker stored outside queue)
    (standing : worker.Stands crew (history.own i ++ done))
    (handed : (History.handed (done.map (i, ·))).map Prod.snd ++ queue.waiting = pool.queue.waiting)
    (closed : queue.closed = true) (drained : worker.stage = .finished → queue.waiting = []) :
    Stands crew groups count (history ++ done.map (i, ·)) after := by
  obtain ⟨workers, rfl, rfl, rfl⟩ := replaces
  refine ⟨by rw [workers, List.length_set, stands.workers], ?_, ?_, ?_, closed, ?_⟩
  · intro j other found
    rw [workers] at found
    by_cases same : i = j
    · subst same
      rw [List.getElem?_set_self (stands.workers ▸ present)] at found
      obtain rfl := Option.some.inj found
      simpa using standing
    · rw [List.getElem?_set_ne same] at found
      simpa [History.own_other (Ne.symm same)] using stands.worker j other found
  · intro entry member
    rcases List.mem_append.mp member with member | member
    · exact stands.known entry member
    · obtain ⟨act, _, rfl⟩ := List.mem_map.mp member
      exact present
  · rw [History.handed_append, List.map_append, List.append_assoc, handed]
    exact stands.handed
  · intro other member finished
    rw [workers] at member
    rcases List.mem_or_eq_of_mem_set member with member | rfl
    · have empty := stands.drained other member finished
      exact (List.append_eq_nil_iff.mp (handed.trans empty)).2
    · exact drained finished

theorem Stands.present {worker : Worker} (stands : Stands crew groups count history pool)
    (found : pool.workers[i]? = some worker) : i < count :=
  stands.workers ▸ (List.getElem?_eq_some_iff.mp found).1

/-- A busy worker's acts end with those about the group in its hands. -/
theorem Stands.busy {worker : Worker} {run : GroupRun}
    (stands : Stands crew groups count history pool) (found : pool.workers[i]? = some worker)
    (stage : worker.stage = .busy run) :
    ∃ before group told, Tales crew before worker.report ∧ run.Stands crew group told ∧
      history.own i = before ++ .took group :: told := by
  have standing := stands.worker i worker found
  generalize history.own i = own at standing
  cases standing with
  | free _ idle => exact absurd stage (idle run)
  | busy tales at_ standing =>
    obtain rfl := Worker.Stage.busy.inj (at_.symm.trans stage)
    exact ⟨_, _, _, tales, standing, rfl⟩

theorem Stands.step (stands : Stands crew groups count history pool)
    (moves : Moves crew pool i done after) :
    Stands crew groups count (history ++ done.map (i, ·)) after := by
  cases moves with
  | absent _ | rest _ _ | wait _ _ _ _ => simpa using stands
  | leave found stage waiting closed replaces =>
    have tales := (stands.worker i _ found).told (by simp [stage])
    refine stands.replace (stands.present found) replaces ?_ rfl closed (fun _ => waiting)
    rw [List.append_nil]
    exact .free tales (by simp)
  | take found stage waiting replaces =>
    have tales := (stands.worker i _ found).told (by simp [stage])
    refine stands.replace (stands.present found) replaces ?_ waiting.symm stands.closed nofun
    exact .busy tales rfl (GroupRun.start_stands crew _)
  | work found stage moves replaces =>
    obtain ⟨before, group, told, tales, standing, own⟩ := stands.busy found stage
    refine stands.replace (stands.present found) replaces ?_ ?_ stands.closed nofun
    · rw [own, List.append_assoc, List.cons_append]
      exact .busy tales rfl (standing.next moves)
    · rw [untaken moves]
      rfl
  | finish found stage moves replaces =>
    obtain ⟨before, group, told, tales, standing, own⟩ := stands.busy found stage
    obtain ⟨rfl, telling, tasks, rfl⟩ := standing.finish moves
    refine stands.replace (stands.present found) replaces ?_ rfl stands.closed nofun
    rw [own, List.append_nil]
    exact .free (tales.whole telling tasks) (by simp)
  | abort found stage moves replaces =>
    obtain ⟨before, group, told, tales, standing, own⟩ := stands.busy found stage
    obtain ⟨task, rest, rfl, telling, undone, tasks, judged⟩ := standing.abort moves
    refine stands.replace (stands.present found) replaces ?_ rfl stands.closed nofun
    rw [own, List.append_assoc, List.cons_append]
    exact .free (tales.broken telling undone tasks judged) (by simp)

/-- Every interleaving keeps it, whatever else changes the store. -/
theorem Reaches.stands {drift : σ → σ → Prop} {store : σ} {env : ε}
    (path : Reaches crew drift (start store env (Scheduler.fullQueue groups) count) history pool) :
    Stands crew groups count history pool := by
  refine path.invariant (start_stands crew groups count store env) ?_ ?_
  · exact fun stands moves => stands.step moves
  · exact fun stands _ =>
      ⟨stands.workers, stands.worker, stands.known, stands.handed, stands.closed, stands.drained⟩

end WorkerPool
end CodeAudit
