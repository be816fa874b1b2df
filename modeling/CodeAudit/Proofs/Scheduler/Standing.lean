import CodeAudit.Proofs.Scheduler.Stories

/-! Where the run of a group and where a worker stand after their acts so far: which tasks have met
their fates, which one is in hand, and what has been reported of them. -/
namespace CodeAudit

namespace GroupRun
variable {σ τ ε : Type} [TaskStore σ τ]

/-- The run of a group after some acts, between two tasks or with one in hand. -/
inductive Stands (crew : Crew ε) (group : TaskGroup) (run : GroupRun) : List Act → Prop where
  | between : Telling crew told → run.stage = .deciding →
      (fatesOf told).map Prod.fst ++ run.waiting = group.tasks →
      run.report = .ofFates 1 (fatesOf told) → Stands crew group run told
  | within : Telling crew told → Opening crew task run.stage opening →
      (fatesOf told).map Prod.fst ++ task :: run.waiting = group.tasks →
      run.report = (RunReport.ofFates 1 (fatesOf told)).underway →
        Stands crew group run (told ++ opening)

variable {crew : Crew ε} {group : TaskGroup} {run : GroupRun} {told opening story done : List Act}
  {task : Task} {store stored : σ} {env outside : ε}

theorem start_stands (crew : Crew ε) (group : TaskGroup) : Stands crew group (start group) [] :=
  .between .nil rfl rfl rfl

/-- A story that the run leaves behind. -/
theorem Stands.close {next : GroupRun} {rest : List Task} {fate : Fate}
    (telling : Telling crew told)
    (tasks : (fatesOf told).map Prod.fst ++ task :: rest = group.tasks)
    (tale : Story crew task fate story) (stage : next.stage = .deciding)
    (waiting : next.waiting = rest)
    (report : next.report = .ofFates 1 (fatesOf told ++ [(task, fate)])) :
    Stands crew group next (told ++ story) := by
  refine .between (telling.add tale) stage ?_ ?_
  · rw [fatesOf_append, tale.fates, List.map_append, List.append_assoc, waiting]
    exact tasks
  · rw [fatesOf_append, tale.fates, report]

/-- The fault of a task in hand closes its story. -/
theorem Stands.settle {fault : Fault} (telling : Telling crew told)
    (tasks : (fatesOf told).map Prod.fst ++ task :: run.waiting = group.tasks)
    (report : run.report = (RunReport.ofFates 1 (fatesOf told)).underway)
    (tale : Story crew task fault.fate story) :
    Stands crew group (run.settle task fault).1 (told ++ story) :=
  .close telling tasks tale (settle_stage task fault) (settle_waiting task fault)
    (settle_report report task fault)

/-- A step between two tasks takes up the next one or passes it over. -/
theorem Stands.next_between {next : GroupRun} (telling : Telling crew told)
    (deciding : run.stage = .deciding)
    (tasks : (fatesOf told).map Prod.fst ++ run.waiting = group.tasks)
    (report : run.report = .ofFates 1 (fatesOf told))
    (moves : Moves crew run store env done (.running next) stored outside) :
    Stands crew group next (told ++ done) := by
  cases moves with
  | @skip task rest stage waiting isDone =>
    rw [waiting] at tasks
    exact .close telling tasks (.done isDone) stage rfl
      (skipDone_report report task rest)
  | @turnDown task rest _ stage waiting undone judged =>
    rw [waiting] at tasks
    exact .close telling tasks (.turnedDown undone (congrArg Prod.fst judged)) stage rfl
      (skipFiltered_report report task rest)
  | @accept task rest _ stage waiting undone judged =>
    rw [waiting] at tasks
    refine .within telling (.accepted undone (congrArg Prod.fst judged)) tasks ?_
    simp only [GroupRun.accept, report, RunReport.underway]
  | unbriefed stage | unread stage | first stage | brief stage => simp [deciding] at stage
  | misbrief stage | call stage | late stage | refuse stage => simp [deciding] at stage
  | blank stage | answer stage | save stage | unsaved stage => simp [deciding] at stage

/-- A step with a task in hand brings it further or to its end. -/
theorem Stands.next_within {next : GroupRun} (telling : Telling crew told)
    (opened : Opening crew task run.stage opening)
    (tasks : (fatesOf told).map Prod.fst ++ task :: run.waiting = group.tasks)
    (report : run.report = (RunReport.ofFates 1 (fatesOf told)).underway)
    (moves : Moves crew run store env done (.running next) stored outside) :
    Stands crew group next (told ++ opening ++ done) := by
  rw [List.append_assoc]
  cases moves with
  | skip stage | turnDown stage | accept stage =>
    exact absurd opened.inHand (by simp [stage, Stage.task?])
  | unbriefed stage | first stage =>
    obtain ⟨opened, rfl⟩ := opened.of_stage stage rfl
    exact .within telling (.alone opened) tasks report
  | brief stage summarizer _ _ _ some summary =>
    obtain ⟨opened, rfl⟩ := opened.of_stage stage rfl
    exact .within telling (.briefed opened some summarizer summary) tasks report
  | unread stage =>
    obtain ⟨opened, rfl⟩ := opened.of_stage stage rfl
    exact .settle telling tasks report (.unread _ opened)
  | misbrief stage summarizer _ _ _ some summary =>
    obtain ⟨opened, rfl⟩ := opened.of_stage stage rfl
    exact .settle telling tasks report (.misbriefed opened some summarizer summary)
  | call stage =>
    obtain ⟨opened, rfl⟩ := opened.of_stage stage rfl
    exact .within telling (.called env opened) tasks report
  | late stage isLate =>
    obtain ⟨opened, rfl⟩ := opened.of_stage stage rfl
    exact .settle telling tasks report (.late opened isLate)
  | refuse stage timely answer =>
    obtain ⟨opened, rfl⟩ := opened.of_stage stage rfl
    exact .settle telling tasks report (.refused opened answer)
  | blank stage timely answer =>
    obtain ⟨opened, rfl⟩ := opened.of_stage stage rfl
    exact .settle telling tasks report (.blank opened answer)
  | answer stage timely answer nonempty =>
    obtain ⟨opened, rfl⟩ := opened.of_stage stage rfl
    exact .within telling (.answered opened timely answer nonempty) tasks report
  | save stage saved =>
    obtain ⟨opened, rfl⟩ := opened.of_stage stage rfl
    exact .close telling tasks (.saved opened) rfl rfl (succeed_report report _ _)
  | unsaved stage saved =>
    obtain ⟨opened, rfl⟩ := opened.of_stage stage rfl
    exact .settle telling tasks report (.unsaved _ opened)

theorem Stands.next {next : GroupRun} (stands : Stands crew group run told)
    (moves : Moves crew run store env done (.running next) stored outside) :
    Stands crew group next (told ++ done) := by
  cases stands with
  | between telling deciding tasks report => exact .next_between telling deciding tasks report moves
  | within telling opened tasks report => exact .next_within telling opened tasks report moves

/-- A finished group has told of all its tasks. -/
theorem Stands.finish {report : RunReport} (stands : Stands crew group run told)
    (moves : Moves crew run store env done (.finished report) stored outside) :
    done = [] ∧ Telling crew told ∧ (fatesOf told).map Prod.fst = group.tasks ∧
      report = .ofFates 1 (fatesOf told) := by
  cases moves with
  | finish stage waiting =>
    cases stands with
    | between telling _ tasks report =>
      rw [waiting, List.append_nil] at tasks
      exact ⟨rfl, telling, tasks, report⟩
    | within _ opened => exact absurd opened.inHand (by simp [stage, Stage.task?])

/-- A group is given up at a task that the filter fails on. -/
theorem Stands.abort {fault : Fault} (stands : Stands crew group run told)
    (moves : Moves crew run store env done (.aborted fault) stored outside) :
    ∃ task rest, done = [.judged task (.error fault)] ∧ Telling crew told ∧ task.isDone = false ∧
      (fatesOf told).map Prod.fst ++ task :: rest = group.tasks ∧
        crew.judge task env = (.error fault, outside) := by
  cases moves with
  | abort stage waiting undone judged =>
    cases stands with
    | between telling _ tasks _ => exact ⟨_, _, rfl, telling, undone, waiting ▸ tasks, judged⟩
    | within _ opened => exact absurd opened.inHand (by simp [stage, Stage.task?])

end GroupRun
end CodeAudit
