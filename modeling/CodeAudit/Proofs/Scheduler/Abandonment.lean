import CodeAudit.Proofs.Scheduler.Accounting
import CodeAudit.Proofs.Scheduler.Copies

/-! Groups that are given up when the filter fails at a task. The report leaves out all that befell
their tasks and tells of the other groups everything. -/
namespace CodeAudit

open TaskStore

section Stories
variable {ε : Type} {crew : Crew ε} {task other : Task} {stage : GroupRun.Stage}
  {acts story : List Act} {fate : Fate} {fault : Fault}

/-! What is told of a task to its end holds no failure of the filter. -/

theorem Opening.unfailed (opening : Opening crew task stage acts) :
    .judged other (.error fault) ∉ acts := by
  induction opening with
  | accepted _ _ => simp
  | alone _ ih | briefed _ _ _ _ ih | called _ _ ih => simpa using ih
  | answered _ _ _ _ ih => simpa using ih

theorem Story.unfailed (tale : Story crew task fate story) :
    .judged other (.error fault) ∉ story := by
  cases tale with
  | done _ | turnedDown _ _ => simp
  | unread _ opening | misbriefed opening _ _ _ | unsaved _ opening => simpa using opening.unfailed
  | refused opening _ | late opening _ | blank opening _ => simpa using opening.unfailed
  | saved opening => simpa using opening.unfailed

theorem Telling.unfailed (telling : Telling crew acts) : .judged other (.error fault) ∉ acts := by
  induction telling with
  | nil => exact List.not_mem_nil
  | add _ tale ih => exact fun member => (List.mem_append.mp member).elim ih tale.unfailed

end Stories

/-- What has become of a group that was taken: the fates of its tasks, and whether it was given up
before its end. -/
structure Shift where
  group : TaskGroup
  fates : List (Task × Fate)
  broken : Bool

structure Shift.Within (acts : List Act) (shift : Shift) : Prop where
  inside : ∀ told ∈ shift.fates, told.1 ∈ shift.group.tasks
  failed : shift.broken = true → ∃ task ∈ shift.group.tasks,
    ∃ fault, .judged task (.error fault) ∈ acts

structure Shifts (acts : List Act) (shifts : List Shift) : Prop where
  groups : (shifts.map Shift.group).Perm (groupsOf acts)
  fates : (shifts.flatMap Shift.fates).Perm (fatesOf acts)
  within : ∀ shift ∈ shifts, shift.Within acts
  noted : ∀ task fault, .judged task (.error fault) ∈ acts →
    ∃ shift ∈ shifts, shift.broken = true ∧ task ∈ shift.group.tasks

def Shift.whole (shifts : List Shift) : List Shift := shifts.filter (fun shift => !shift.broken)

section Shifts
variable {acts others : List Act} {shift : Shift} {shifts more : List Shift}

theorem Shift.Within.mono (within : shift.Within acts) (wider : acts ⊆ others) :
    shift.Within others := by
  refine ⟨within.inside, fun broken => ?_⟩
  obtain ⟨task, inside, fault, judged⟩ := within.failed broken
  exact ⟨task, inside, fault, wider judged⟩

theorem Shifts.nil : Shifts [] [] :=
  ⟨.nil, .nil, fun _ member => absurd member List.not_mem_nil, fun _ _ judged =>
    absurd judged List.not_mem_nil⟩

theorem Shifts.perm (made : Shifts acts shifts) (same : acts.Perm others) :
    Shifts others shifts where
  groups := made.groups.trans (same.filterMap _)
  fates := made.fates.trans (same.filterMap _)
  within shift member := (made.within shift member).mono same.subset
  noted task fault judged := made.noted task fault (same.symm.subset judged)

theorem Shifts.append (left : Shifts acts shifts) (right : Shifts others more) :
    Shifts (acts ++ others) (shifts ++ more) where
  groups := by
    rw [List.map_append, groupsOf, List.filterMap_append]
    exact left.groups.append right.groups
  fates := by
    rw [List.flatMap_append, fatesOf_append]
    exact left.fates.append right.fates
  within := by
    intro shift member
    rcases List.mem_append.mp member with member | member
    · exact (left.within shift member).mono (List.subset_append_left _ _)
    · exact (right.within shift member).mono (List.subset_append_right _ _)
  noted := by
    intro task fault judged
    rcases List.mem_append.mp judged with judged | judged
    · obtain ⟨shift, member, broken⟩ := left.noted task fault judged
      exact ⟨shift, List.mem_append_left _ member, broken⟩
    · obtain ⟨shift, member, broken⟩ := right.noted task fault judged
      exact ⟨shift, List.mem_append_right _ member, broken⟩

theorem Shifts.flatMap {made : Nat → List Shift} {own : Nat → List Act} {indices : List Nat}
    (each : ∀ i ∈ indices, Shifts (own i) (made i)) :
    Shifts (indices.flatMap own) (indices.flatMap made) := by
  induction indices with
  | nil => exact .nil
  | cons i indices ih =>
    obtain ⟨first, rest⟩ := List.forall_mem_cons.mp each
    exact first.append (ih rest)

theorem whole_append : Shift.whole (shifts ++ more) = Shift.whole shifts ++ Shift.whole more :=
  List.filter_append ..

theorem Shifts.whole_once (made : Shifts acts shifts)
    (distinct : ((fatesOf acts).map (·.1.id)).Nodup) :
    (((Shift.whole shifts).flatMap Shift.fates).map (·.1.id)).Nodup := by
  have all := (made.fates.map (·.1.id)).nodup_iff.mpr distinct
  exact ((List.filter_sublist.flatMap Shift.fates).map _).nodup all

variable {ε : Type} {crew : Crew ε} {report : RunReport} {group : TaskGroup} {told : List Act}

theorem Telling.wholeShift (telling : Telling crew told)
    (tasks : (fatesOf told).map Prod.fst = group.tasks) :
    Shifts (.took group :: told) [⟨group, fatesOf told, false⟩] where
  groups := by
    have taken : groupsOf (.took group :: told) = [group] :=
      groupsOf_take [] (telling.about_group ((List.append_nil _).trans tasks))
    rw [taken]
    rfl
  fates := by simp [Act.fate?]
  within := by
    intro shift member
    obtain rfl := List.mem_singleton.mp member
    refine ⟨fun entry member => tasks ▸ List.mem_map_of_mem member, fun broken => ?_⟩
    exact absurd broken Bool.false_ne_true
  noted := by
    intro task fault judged
    rcases List.mem_cons.mp judged with same | judged
    · cases same
    · exact absurd judged telling.unfailed

theorem Telling.brokenShift {task : Task} {fault : Fault} {rest : List Task}
    (telling : Telling crew told)
    (tasks : (fatesOf told).map Prod.fst ++ task :: rest = group.tasks) :
    Shifts (.took group :: (told ++ [.judged task (.error fault)]))
      [⟨group, fatesOf told, true⟩] where
  groups := by
    have taken : groupsOf (.took group :: (told ++ [.judged task (.error fault)])) = [group] :=
      groupsOf_broken [] (telling.about_group tasks)
    rw [taken]
    rfl
  fates := by simp [Act.fate?]
  within := by
    intro shift member
    obtain rfl := List.mem_singleton.mp member
    refine ⟨fun entry member => tasks ▸ List.mem_append_left _ (List.mem_map_of_mem member),
      fun _ => ?_⟩
    exact ⟨task, tasks ▸ List.mem_append_right _ List.mem_cons_self, fault, by simp⟩
  noted := by
    intro other fault judged
    rcases List.mem_cons.mp judged with same | judged
    · cases same
    · rcases List.mem_append.mp judged with judged | judged
      · exact absurd judged telling.unfailed
      · obtain ⟨rfl, _⟩ := Act.judged.inj (List.mem_singleton.mp judged)
        exact ⟨_, List.mem_singleton_self _, rfl,
          tasks ▸ List.mem_append_right _ List.mem_cons_self⟩

/-- The report of a worker tells of the groups that it did not give up. -/
theorem Tales.reported_whole (tales : Tales crew acts report)
    (distinct : ((fatesOf acts).map (·.1.id)).Nodup) :
    ∃ shifts, Shifts acts shifts ∧
      report = .ofFates (Shift.whole shifts).length ((Shift.whole shifts).flatMap Shift.fates) := by
  induction tales with
  | nil => exact ⟨[], .nil, RunReport.ofFates_nil.symm⟩
  | whole _ telling tasks ih =>
    have earlier := distinct
    rw [fatesOf_append, List.map_append] at earlier
    obtain ⟨shifts, made, rfl⟩ := ih (List.nodup_append.mp earlier).1
    have grown := made.append (telling.wholeShift tasks)
    have once := grown.whole_once distinct
    refine ⟨_, grown, ?_⟩
    rw [whole_append, List.flatMap_append] at once ⊢
    have last := RunReport.merge_ofFates (Shift.whole shifts).length 1 once
    simpa [Shift.whole] using last
  | broken _ telling _ tasks _ ih =>
    rw [fatesOf_append, List.map_append] at distinct
    obtain ⟨shifts, made, rfl⟩ := ih (List.nodup_append.mp distinct).1
    refine ⟨_, made.append (telling.brokenShift tasks), ?_⟩
    simp [Shift.whole]

/-- Where a choice among fates goes by their shifts, so does what is chosen. -/
theorem whole_fates {pick : Task × Fate → Bool}
    (agree : ∀ shift ∈ shifts, ∀ told ∈ shift.fates, pick told = !shift.broken) :
    (shifts.flatMap Shift.fates).filter pick = (Shift.whole shifts).flatMap Shift.fates := by
  induction shifts with
  | nil => rfl
  | cons shift shifts ih =>
    obtain ⟨here, rest⟩ := List.forall_mem_cons.mp agree
    rw [List.flatMap_cons, List.filter_append, ih rest, Shift.whole, Shift.whole]
    cases broken : shift.broken with
    | true =>
      have none : shift.fates.filter pick = [] :=
        List.filter_eq_nil_iff.mpr (fun told member => by simp [here told member, broken])
      rw [none, List.filter_cons_of_neg (by simp [broken]), List.nil_append]
    | false =>
      have all : shift.fates.filter pick = shift.fates :=
        List.filter_eq_self.mpr (fun told member => by simp [here told member, broken])
      rw [all, List.filter_cons_of_pos (by simp [broken]), List.flatMap_cons]

end Shifts

namespace History

def abandons (history : History) (group : TaskGroup) : Bool :=
  history.judged.any (fun (task, verdict) => !verdict.isOk && decide (task ∈ group.tasks))

def abandoned (history : History) (groups : List TaskGroup) (task : Task) : Bool :=
  groups.any (fun group => history.abandons group && decide (task ∈ group.tasks))

variable {history : History} {group : TaskGroup} {groups : List TaskGroup} {tasks : List Task}
  {shifts : List Shift} {shift : Shift} {told : Task × Fate}

theorem abandons_iff : history.abandons group = true ↔
    ∃ task ∈ group.tasks, ∃ fault, .judged task (.error fault) ∈ history.map Prod.snd := by
  simp only [abandons, List.any_eq_true, Bool.and_eq_true, decide_eq_true_eq, Prod.exists,
    mem_judged]
  constructor
  · rintro ⟨task, verdict, ⟨i, judged⟩, failed, inside⟩
    cases verdict with
    | error fault => exact ⟨task, inside, fault, List.mem_map_of_mem judged⟩
    | ok _ => contradiction
  · rintro ⟨task, inside, fault, judged⟩
    obtain ⟨⟨i, _⟩, judged, rfl⟩ := List.mem_map.mp judged
    exact ⟨task, .error fault, ⟨i, judged⟩, rfl, inside⟩

theorem broken_iff (made : Shifts (history.map Prod.snd) shifts)
    (splits : TaskGroup.Splits tasks groups) (distinct : tasks.Nodup)
    (handed : history.handed.map Prod.snd = groups) (member : shift ∈ shifts) :
    shift.broken = true ↔ history.abandons shift.group = true := by
  rw [abandons_iff]
  constructor
  · exact (made.within shift member).failed
  · rintro ⟨task, inside, fault, judged⟩
    obtain ⟨other, among, broken, also⟩ := made.noted task fault judged
    have taken := made.groups
    rw [← handed_groups, handed] at taken
    have same : shift.group = other.group :=
      splits.group_unique distinct (taken.subset (List.mem_map_of_mem member))
        (taken.subset (List.mem_map_of_mem among)) inside also
    have once := taken.nodup_iff.mpr (splits.nodup distinct)
    exact List.inj_on_of_nodup_map once member among same ▸ broken

theorem abandoned_iff (made : Shifts (history.map Prod.snd) shifts)
    (splits : TaskGroup.Splits tasks groups) (distinct : tasks.Nodup)
    (handed : history.handed.map Prod.snd = groups) (member : shift ∈ shifts)
    (met : told ∈ shift.fates) : history.abandoned groups told.1 = true ↔ shift.broken = true := by
  have taken := made.groups
  rw [← handed_groups, handed] at taken
  have known : shift.group ∈ groups := taken.subset (List.mem_map_of_mem member)
  have inside := (made.within shift member).inside told met
  rw [broken_iff made splits distinct handed member]
  simp only [abandoned, List.any_eq_true, Bool.and_eq_true, decide_eq_true_eq]
  constructor
  · rintro ⟨group, among, lost, also⟩
    exact splits.group_unique distinct known among inside also ▸ lost
  · exact fun lost => ⟨shift.group, known, lost, inside⟩

end History

namespace WorkerPool
variable {σ τ ε : Type} [TaskStore σ τ] {crew : Crew ε} {tasks : List Task}
  {groups : List TaskGroup} {count : Nat} {history : History} {pool : WorkerPool σ ε}

/-- The workers' reports, merged in their order, tell of the shifts that came to their end. -/
theorem Stands.reported_whole (stands : Stands crew groups count history pool)
    (finished : pool.isFinished = true) (distinct : (history.fates.map (·.1.id)).Nodup) :
    ∃ shifts, Shifts (history.map Prod.snd) shifts ∧
      pool.report = .ofFates (Shift.whole shifts).length
        ((Shift.whole shifts).flatMap Shift.fates) := by
  have each (i : Nat) : ∃ shifts, ∀ worker : Worker, pool.workers[i]? = some worker →
      Shifts (history.own i) shifts ∧
        worker.report = .ofFates (Shift.whole shifts).length
          ((Shift.whole shifts).flatMap Shift.fates) := by
    by_cases below : i < count
    · obtain ⟨worker, found, _, tales⟩ := stands.ended finished below
      obtain ⟨shifts, made, told⟩ := tales.reported_whole (History.own_once distinct i)
      exact ⟨shifts, fun other same => Option.some.inj (found.symm.trans same) ▸ ⟨made, told⟩⟩
    · exact ⟨[], fun worker found => absurd (stands.present found) below⟩
  choose made each using each
  have acts : ((List.range count).flatMap history.own).Perm (history.map Prod.snd) := by
    simpa using (History.perm_own stands.known some).symm
  have all : Shifts (history.map Prod.snd) ((List.range count).flatMap made) := by
    refine Shifts.perm (Shifts.flatMap (fun i member => ?_)) acts
    obtain ⟨worker, found, _⟩ := stands.own (List.mem_range.mp member)
    exact (each i worker found).1
  have once := all.whole_once (by simpa [fatesOf, History.fates, List.filterMap_map] using distinct)
  refine ⟨_, all, ?_⟩
  let part (i : Nat) :=
    ((Shift.whole (made i)).map Shift.group, (Shift.whole (made i)).flatMap Shift.fates)
  have groups : ((List.range count).map part).flatMap Prod.fst =
      (Shift.whole ((List.range count).flatMap made)).map Shift.group := by
    simp only [List.flatMap_map, part, Shift.whole, List.filter_flatMap, List.map_flatMap]
  have fates : ((List.range count).map part).flatMap Prod.snd =
      (Shift.whole ((List.range count).flatMap made)).flatMap Shift.fates := by
    simp only [List.flatMap_map, part, Shift.whole, List.filter_flatMap, List.flatMap_assoc]
  rw [← fates] at once
  have merged := RunReport.mergeAll_ofFates _ once
  rw [List.map_map, fates, groups, List.length_map] at merged
  have reports := stands.map_report (fun i worker found => (each i worker found).2)
  refine (congrArg RunReport.mergeAll (reports.trans ?_)).trans merged
  exact List.map_congr_left (fun i _ => by simp only [Function.comp, part, List.length_map])

/-- The report tells of the groups that were not given up, and of all their tasks' fates. -/
theorem Stands.report_kept (stands : Stands crew groups count history pool)
    (finished : pool.isFinished = true) (manned : 0 < count)
    (splits : TaskGroup.Splits tasks groups) (distinct : (tasks.map Task.id).Nodup) :
    pool.report =
      .ofFates ((history.handed.map Prod.snd).filter (fun group => !history.abandons group)).length
      (history.fates.filter (fun told => !history.abandoned groups told.1)) := by
  have once : tasks.Nodup := .of_map _ distinct
  have ids := stands.fate_ids_once splits distinct
  have handed := stands.handed_all finished manned
  obtain ⟨shifts, made, told⟩ := stands.reported_whole finished ids
  have groupsKept : ((Shift.whole shifts).map Shift.group).Perm
      ((history.handed.map Prod.snd).filter (fun group => !history.abandons group)) := by
    rw [History.handed_groups]
    refine .trans (.of_eq ?_) (made.groups.filter _)
    rw [List.filter_map, Shift.whole]
    refine congrArg (List.map Shift.group) (List.filter_congr (fun shift member => ?_))
    exact congrArg not (Bool.eq_iff_iff.mpr (History.broken_iff made splits once handed member))
  have fatesKept : ((Shift.whole shifts).flatMap Shift.fates).Perm
      (history.fates.filter (fun told => !history.abandoned groups told.1)) := by
    have same := made.fates
    rw [fatesOf, List.filterMap_map] at same
    refine .trans (.of_eq ?_) (same.filter _)
    refine (whole_fates (fun shift member told met => ?_)).symm
    exact congrArg not
      (Bool.eq_iff_iff.mpr (History.abandoned_iff made splits once handed member met))
  rw [told, ← List.length_map (f := Shift.group), groupsKept.length_eq]
  refine RunReport.ofFates_perm _ fatesKept ?_
  exact (fatesKept.map _).nodup_iff.mpr ((List.filter_sublist.map _).nodup ids)

end WorkerPool

/-- The report counts the groups that the filter has not failed in and what was done in them, and a
task whose result was stored is told of just where its group is one of these. -/
structure RunReport.TellsKept (report : RunReport) (tasks : List Task)
    (history : History) : Prop where
  groups : report.groups.toNat = (history.handed.map Prod.snd).countP
    (fun group => !history.abandons group)
  executed : report.executed.toNat =
    history.fates.countP (fun (task, fate) => fate.isExecuted &&
      !history.abandoned (TaskGroup.partition tasks) task)
  succeeded : report.succeeded.toNat =
    history.saved.countP (fun task => !history.abandoned (TaskGroup.partition tasks) task)
  states : ∀ task ∈ history.saved, ∀ state, (task.id, state) ∈ report.states ↔
    state = .succeeded ∧ history.abandoned (TaskGroup.partition tasks) task = false

theorem History.saved_fates (history : History) :
    history.saved = (history.fates.filter (fun told => told.2.result?.isSome)).map Prod.fst := by
  rw [saved, fates, List.filter_filterMap, List.map_filterMap]
  refine List.filterMap_congr (fun entry _ => ?_)
  obtain ⟨_, act⟩ := entry
  cases act with
  | judged _ verdict => rcases verdict with fault | _ | _ <;> rfl
  | settled _ state => cases state <;> rfl
  | _ => rfl

theorem RunReport.TellsKept.of_fates {tasks : List Task} {history : History}
    (once : (history.fates.map (·.1.id)).Nodup) (fates : history.fates.length < 2 ^ 64)
    (handed : (history.handed.map Prod.snd).length < 2 ^ 64) :
    (RunReport.ofFates
      ((history.handed.map Prod.snd).filter (fun group => !history.abandons group)).length
      (history.fates.filter
        (fun told => !history.abandoned (TaskGroup.partition tasks) told.1))).TellsKept tasks
        history := by
  have counter {count : Nat} {bound : Nat} (less : count ≤ bound) (small : bound < 2 ^ 64) :
      (UInt64.ofNat count).toNat = count :=
        UInt64.toNat_ofNat_of_lt' (Nat.lt_of_le_of_lt less small)
  constructor
  case groups =>
    rw [List.countP_eq_length_filter]
    exact counter (List.length_filter_le _ _) handed
  case executed =>
    simp only [RunReport.ofFates, List.countP_filter]
    exact counter List.countP_le_length fates
  case succeeded =>
    rw [History.saved_fates, List.countP_map, List.countP_filter]
    simp only [RunReport.ofFates, List.countP_filter, Function.comp_def, Bool.and_comm]
    exact counter List.countP_le_length fates
  case states =>
    intro task stored state
    obtain ⟨result, met⟩ := History.mem_saved.mp stored
    rw [RunReport.ofFates, RunReport.mem_statesOf ((List.filter_sublist.map _).nodup once)]
    constructor
    · rintro ⟨told, member, same⟩
      obtain ⟨inside, whole⟩ := List.mem_filter.mp member
      obtain ⟨alike, rfl⟩ := Prod.mk.inj same
      obtain rfl := List.inj_on_of_nodup_map once met inside alike
      exact ⟨rfl, by simpa using whole⟩
    · rintro ⟨rfl, whole⟩
      exact ⟨_, List.mem_filter.mpr ⟨met, by simp [whole]⟩, rfl⟩

namespace Scheduler
variable {σ τ ε : Type} [TaskStore σ τ] {scheduler : Scheduler ε} {filter : Option (Filter ε)}
  {tasks : List Task} {store : σ} {env : ε} {drift : σ → σ → Prop} {history : History}
  {answer : Except Fault RunReport} {stored : σ} {outside : ε}

theorem Runs.report_kept
    (runs : Runs scheduler filter drift tasks store env history answer stored outside)
    (known : ∀ task ∈ tasks, task.id ≠ 0) (distinct : (tasks.map Task.id).Nodup)
    (workers : 1 ≤ scheduler.workers) :
    answer =
      .ok (.ofFates ((history.handed.map Prod.snd).filter
        (fun group => !history.abandons group)).length
      (history.fates.filter (fun told => !history.abandoned (TaskGroup.partition tasks) told.1)))
        := by
  cases runs with
  | refused unstored => simp [find_unstored known] at unstored
  | nothing _ _ => exact congrArg _ RunReport.ofFates_nil.symm
  | ended _ some path finished =>
    have splits := TaskGroup.partition_splits tasks
    exact congrArg _ (path.stands.report_kept finished (manned workers some) splits distinct)

/-- There are fewer fates, and fewer groups handed out, than a counter can count. -/
theorem Runs.few (runs : Runs scheduler filter drift tasks store env history answer stored outside)
    (known : ∀ task ∈ tasks, task.id ≠ 0) (distinct : (tasks.map Task.id).Nodup) :
    history.fates.length < 2 ^ 64 ∧ (history.handed.map Prod.snd).length < 2 ^ 64 := by
  obtain ⟨_, path, _⟩ := runs.reached
  have splits := TaskGroup.partition_splits tasks
  have bound := tasks_length_lt known distinct
  have once := path.stands.fates_once splits (.of_map _ distinct)
  have listed : history.fates.map Prod.fst ⊆ tasks := by
    intro task member
    obtain ⟨told, met, rfl⟩ := List.mem_map.mp member
    exact path.stands.fates_known splits met
  have fates := (List.subperm_of_subset once listed).length_le
  have handed := path.stands.handed_prefix.length_le
  have groups := splits.length_le
  rw [List.length_map] at fates
  omega

/-- Whatever fails and however the workers' steps interleave, a group that the filter fails in takes
all that was done in it out of the report, although its results are stored; of every other group the
report tells everything. -/
theorem report_tells_kept_groups {backend : Backend} (scheduler : Scheduler ε)
    (filter : Option (Filter ε)) (tasks : List Task) (known : ∀ task ∈ tasks, task.id ≠ 0)
    (distinct : (tasks.map Task.id).Nodup) (workers : 1 ≤ scheduler.workers)
    (store : Unreliable backend.Store) (env : ε) {history : History}
    {answer : Except Fault RunReport} {stored : Unreliable backend.Store} {outside : ε}
    (runs : scheduler.Runs filter Unreliable.Drifts tasks store env history answer stored outside) :
    stored.store = mapRows (amended (keep backend.Store) history.fates) store.store ∧
      ∃ report, answer = .ok report ∧ report.TellsKept tasks history := by
  obtain ⟨pool, path, ended⟩ := runs.reached
  have once := path.stands.fate_ids_once (TaskGroup.partition_splits tasks) distinct
  obtain ⟨fates, handed⟩ := runs.few known distinct
  refine ⟨ended ▸ Unreliable.store_amended path, _, runs.report_kept known distinct workers, ?_⟩
  exact .of_fates once fates handed

def failingAt (id : UInt64) : Filter Unit := fun task env =>
  (if task.id = id then .error (.external .badState (utf8 "boom")) else .ok true, env)

def trioStore : Unreliable Backend.memory.Store := { store := { committed := { tasks := trio } } }

/-- The group of the pair is given up at its second task, and the third task is told of. -/
theorem report_tells_kept_groups_trio : ∃ history report stored outside,
    pairScheduler.Runs (some (failingAt 2)) Unreliable.Drifts trio trioStore () history (.ok report)
      stored outside ∧
      report.TellsKept trio history ∧ report.states = [(3, .succeeded)] := by
  obtain ⟨history, runs⟩ := runList_runs pairScheduler (some (failingAt 2)) trio trioStore ()
  have widened := runs.widen Unreliable.Drifts (fun _ _ => False.elim)
  obtain ⟨_, report, answer, tells⟩ :=
    @report_tells_kept_groups Unit .memory pairScheduler (some (failingAt 2)) trio
    (by decide) (by decide) (by decide) trioStore () _ _ _ _ widened
  refine ⟨history, report, _, _, answer ▸ widened, tells, ?_⟩
  obtain rfl := Except.ok.inj answer
  rfl

/-- The first task of the pair has its result, and the report knows neither of the task nor of the
group. -/
theorem failing_filter_hides_result : ∃ history report stored,
    pairScheduler.Runs (some (failingAt 2)) Unreliable.Drifts pair pairStore () history (.ok report)
      stored () ∧
      rows stored.store = [{ id := 1, groupId := some [], result := utf8 "safe" },
        { id := 2, groupId := some [] }] ∧
      report.groups = 0 ∧ report.executed = 0 ∧ report.succeeded = 0 ∧ report.states = [] := by
  obtain ⟨history, runs⟩ := runList_runs pairScheduler (some (failingAt 2)) pair pairStore ()
  have widened := runs.widen Unreliable.Drifts (fun _ _ => False.elim)
  exact ⟨history, _, _, widened, by rfl, by rfl, by rfl, by rfl, by rfl⟩

end Scheduler
end CodeAudit
