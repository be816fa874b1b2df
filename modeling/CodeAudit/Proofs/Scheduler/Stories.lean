import CodeAudit.Proofs.Scheduler.Fates
import CodeAudit.Proofs.Scheduler.Moves

/-! The acts of a group's run, task by task. Each task has one story, which opens with a decision
and closes when its fate is sealed, and the stories of a group follow one another without
overlap. -/
namespace CodeAudit

section Order
variable {ε : Type}

/-- A call of the task has ended and its outcome is settled, as a success only with the answer
committed. -/
def Settled (acts : List Act) (task : Task) : Prop :=
  ∃ call state, .returned task call ∈ acts ∧ .settled task state ∈ acts ∧
    (state = .succeeded → ∃ result, call.answer = .ok result ∧ .committed task result ∈ acts)

def Quiet (acts : List Act) : Prop := ∀ task summary, .called task summary ∈ acts →
    Settled acts task

/-- What an act takes for granted about its task and about the acts before it. -/
def Follows (crew : Crew ε) (before : List Act) : Act → Prop
  | .took _ | .unbriefed _ => True
  | .skipped task => task.isDone = true
  | .judged task verdict => task.isDone = false ∧ ∃ env, (crew.judge task env).1 = verdict
  | .briefed _ siblings summary => siblings ≠ [] ∧
      ∃ summarize env, crew.summarizer = some summarize ∧ (summarize siblings env).value = summary
  | .called task summary => task.isDone = false ∧ .judged task (.ok true) ∈ before ∧ Quiet before ∧
      ((∃ siblings, .briefed task siblings (.ok summary) ∈ before) ∨
        (summary = none ∧ .unbriefed task ∈ before))
  | .returned task call => ∃ summary env, .called task summary ∈ before ∧
      call = (crew.executor task { groupSummary := summary } env).value
  | .committed task result => task.isDone = false ∧ result ≠ [] ∧
      ∃ call, .returned task call ∈ before ∧
      GroupRun.isLate crew.limit call.span = false ∧ call.answer = .ok result
  | .settled task _ => task.isDone = false

def Proper (crew : Crew ε) (acts : List Act) : Prop :=
  ∀ before act, before ++ [act] <+: acts → Follows crew before act

variable {crew : Crew ε} {acts first second earlier : List Act} {act : Act}

theorem Settled.append (settled : Settled acts task) (earlier later : List Act) :
    Settled (earlier ++ acts ++ later) task := by
  obtain ⟨call, state, returned, settled, committed⟩ := settled
  have kept {act : Act} (member : act ∈ acts) : act ∈ earlier ++ acts ++ later :=
    List.mem_append_left _ (List.mem_append_right _ member)
  refine ⟨call, state, kept returned, kept settled, fun success => ?_⟩
  obtain ⟨result, answer, member⟩ := committed success
  exact ⟨result, answer, kept member⟩

theorem Quiet.append (left : Quiet first) (right : Quiet second) : Quiet (first ++ second) := by
  intro task summary member
  rcases List.mem_append.mp member with member | member
  · simpa using (left task summary member).append [] second
  · simpa using (right task summary member).append first []

theorem Quiet.of_uncalled (uncalled : acts.filterMap Act.called? = []) : Quiet acts := by
  intro task summary member
  have listed : task ∈ acts.filterMap Act.called? := List.mem_filterMap.mpr ⟨_, member, rfl⟩
  rw [uncalled] at listed
  contradiction

theorem Quiet.of_settled (task : Task) (called : acts.filterMap Act.called? = [task])
    (settled : Settled acts task) :
    Quiet acts := by
  intro other summary member
  have listed : other ∈ acts.filterMap Act.called? := List.mem_filterMap.mpr ⟨_, member, rfl⟩
  rw [called, List.mem_singleton] at listed
  exact listed ▸ settled

theorem Follows.prepend (follows : Follows crew acts act) (quiet : Quiet earlier) :
    Follows crew (earlier ++ acts) act := by
  cases act with
  | called task summary =>
    obtain ⟨undone, judged, calm, informed⟩ := follows
    refine ⟨undone, List.mem_append_right _ judged, quiet.append calm, ?_⟩
    rcases informed with ⟨siblings, briefed⟩ | ⟨none, unbriefed⟩
    · exact .inl ⟨siblings, List.mem_append_right _ briefed⟩
    · exact .inr ⟨none, List.mem_append_right _ unbriefed⟩
  | returned task call =>
    obtain ⟨summary, env, called, same⟩ := follows
    exact ⟨summary, env, List.mem_append_right _ called, same⟩
  | committed task result =>
    obtain ⟨undone, nonempty, call, returned, timely, answer⟩ := follows
    exact ⟨undone, nonempty, call, List.mem_append_right _ returned, timely, answer⟩
  | _ => exact follows

theorem Proper.nil : Proper crew [] := by
  intro before act initial
  simp at initial

theorem Proper.concat (proper : Proper crew acts) (follows : Follows crew acts act) :
    Proper crew (acts ++ [act]) := by
  intro before other initial
  rcases List.prefix_concat_iff.mp initial with whole | initial
  · obtain ⟨rfl, same⟩ := List.append_inj' whole rfl
    obtain rfl := List.singleton_inj.mp same
    exact follows
  · exact proper before other initial

theorem Proper.close (proper : Proper crew acts) (follows : Follows crew acts act)
    (undone : task.isDone = false) (state : TaskState) :
    Proper crew (acts ++ [act, .settled task state]) := by
  rw [List.append_cons]
  have closing : Follows crew (acts ++ [act]) (.settled task state) := undone
  exact (proper.concat follows).concat closing

theorem Proper.append (left : Proper crew first) (quiet : Quiet first)
    (right : Proper crew second) :
    Proper crew (first ++ second) := by
  induction second using List.reverseRecOn with
  | nil => simpa using left
  | append_singleton second act ih =>
    rw [← List.append_assoc]
    refine (ih (fun before other initial => right before other (initial.trans ⟨[act], rfl⟩))).concat
      ?_
    exact (right second act (List.prefix_refl _)).prepend quiet

end Order

section Stories
variable {ε : Type}

/-- What has been done about the task in hand once the run has come to a stage. -/
inductive Opening (crew : Crew ε) (task : Task) : GroupRun.Stage → List Act → Prop where
  | accepted : task.isDone = false → (crew.judge task env).1 = .ok true →
      Opening crew task (.briefing task) [.judged task (.ok true)]
  | alone : Opening crew task (.briefing task) acts →
      Opening crew task (.launching task none) (acts ++ [.unbriefed task])
  | briefed : Opening crew task (.briefing task) acts → siblings ≠ [] →
      crew.summarizer = some summarize →
      (summarize siblings env).value = .ok summary →
      Opening crew task (.launching task summary) (acts ++ [.briefed task siblings (.ok summary)])
  | called (env : ε) : Opening crew task (.launching task summary) acts →
      Opening crew task (.awaiting task (crew.executor task { groupSummary := summary } env).value)
        (acts ++ [.called task summary])
  | answered : Opening crew task (.awaiting task call) acts →
      GroupRun.isLate crew.limit call.span = false →
      call.answer = .ok result → result ≠ [] →
      Opening crew task (.saving task result) (acts ++ [.returned task call])

inductive Story (crew : Crew ε) (task : Task) : Fate → List Act → Prop where
  | done : task.isDone = true → Story crew task .done [.skipped task]
  | turnedDown : task.isDone = false → (crew.judge task env).1 = .ok false →
      Story crew task .turnedDown [.judged task (.ok false)]
  | unread (fault : Fault) : Opening crew task (.briefing task) acts →
      Story crew task fault.fate (acts ++ [.settled task fault.state])
  | misbriefed : Opening crew task (.briefing task) acts → siblings ≠ [] →
      crew.summarizer = some summarize →
      (summarize siblings env).value = .error fault →
      Story crew task fault.fate
        (acts ++ [.briefed task siblings (.error fault), .settled task fault.state])
  | late : Opening crew task (.awaiting task call) acts →
      GroupRun.isLate crew.limit call.span = true →
      Story crew task .requeued (acts ++ [.returned task call, .settled task .requeued])
  | refused : Opening crew task (.awaiting task call) acts → call.answer = .error fault →
      Story crew task fault.fate (acts ++ [.returned task call, .settled task fault.state])
  | blank : Opening crew task (.awaiting task call) acts → call.answer = .ok [] →
      Story crew task .failed (acts ++ [.returned task call, .settled task .failed])
  | unsaved (fault : Fault) : Opening crew task (.saving task result) acts →
      Story crew task fault.fate (acts ++ [.settled task fault.state])
  | saved : Opening crew task (.saving task result) acts →
      Story crew task (.succeeded result)
        (acts ++ [.committed task result, .settled task .succeeded])

/-- The stories of some tasks one after another. -/
inductive Telling (crew : Crew ε) : List Act → Prop where
  | nil : Telling crew []
  | add : Telling crew acts → Story crew task fate story → Telling crew (acts ++ story)

variable {crew : Crew ε} {task : Task} {stage : GroupRun.Stage} {acts story : List Act}
  {fate : Fate}

def GroupRun.Stage.task? : GroupRun.Stage → Option Task
  | .deciding => none
  | .briefing task | .launching task _ | .awaiting task _ | .saving task _ => some task

theorem Opening.inHand (opening : Opening crew task stage acts) : stage.task? = some task := by
  cases opening <;> rfl

theorem Opening.of_stage {actual : GroupRun.Stage} {other : Task}
    (opening : Opening crew task actual acts) (same : actual = stage)
    (hand : stage.task? = some other) :
    Opening crew task stage acts ∧ other = task := by
  subst same
  exact ⟨opening, Option.some.inj (hand.symm.trans opening.inHand)⟩

theorem Opening.fates (opening : Opening crew task stage acts) : fatesOf acts = [] := by
  induction opening with
  | accepted _ _ => rfl
  | alone _ ih | briefed _ _ _ _ ih | called _ _ ih => simp [ih]
  | answered _ _ _ _ ih => simp [ih]

theorem Opening.decided (opening : Opening crew task stage acts) :
    acts.filterMap Act.decided? = [task] := by
  induction opening with
  | accepted _ _ => rfl
  | alone _ ih | briefed _ _ _ _ ih | called _ _ ih => simp [ih, Act.decided?]
  | answered _ _ _ _ ih => simp [ih, Act.decided?]

theorem Opening.judged (opening : Opening crew task stage acts) :
    task.isDone = false ∧ .judged task (.ok true) ∈ acts := by
  induction opening with
  | accepted undone _ => exact ⟨undone, List.mem_singleton_self _⟩
  | alone _ ih | briefed _ _ _ _ ih | called _ _ ih => exact ⟨ih.1, List.mem_append_left _ ih.2⟩
  | answered _ _ _ _ ih => exact ⟨ih.1, List.mem_append_left _ ih.2⟩

/-- A task goes to the executor with the summary of its siblings, or with none for want of
siblings. -/
theorem Opening.informed (opening : Opening crew task (.launching task summary) acts) :
    (∃ siblings, .briefed task siblings (.ok summary) ∈ acts) ∨
      (summary = none ∧ .unbriefed task ∈ acts) := by
  cases opening with
  | alone _ => exact .inr ⟨rfl, List.mem_append_right _ (List.mem_singleton_self _)⟩
  | briefed _ _ _ _ => exact .inl ⟨_, List.mem_append_right _ (List.mem_singleton_self _)⟩

theorem Opening.uncalled_briefing (opening : Opening crew task (.briefing task) acts) :
    acts.filterMap Act.called? = [] := by
  cases opening
  rfl

theorem Opening.uncalled (opening : Opening crew task (.launching task summary) acts) :
    acts.filterMap Act.called? = [] := by
  cases opening with
  | alone opening | briefed opening _ _ _ => simp [opening.uncalled_briefing, Act.called?]

theorem Opening.calls (opening : Opening crew task (.awaiting task call) acts) :
    acts.filterMap Act.called? = [task] ∧ ∃ summary env, .called task summary ∈ acts ∧
      call = (crew.executor task { groupSummary := summary } env).value := by
  cases opening with
  | called env opening =>
    refine ⟨by simp [opening.uncalled, Act.called?], _, env, ?_, rfl⟩
    exact List.mem_append_right _ (List.mem_singleton_self _)

theorem Opening.answers (opening : Opening crew task (.saving task result) acts) :
    acts.filterMap Act.called? = [task] ∧ result ≠ [] ∧ ∃ call, .returned task call ∈ acts ∧
      GroupRun.isLate crew.limit call.span = false ∧ call.answer = .ok result := by
  cases opening with
  | answered opening timely answer nonempty =>
    refine ⟨by simp [opening.calls.1, Act.called?], nonempty, _, ?_, timely, answer⟩
    exact List.mem_append_right _ (List.mem_singleton_self _)

/-- The task in hand is called for once at most. -/
theorem Opening.calls_once (opening : Opening crew task stage acts) :
    (acts.filterMap Act.called?).Sublist [task] := by
  cases opening with
  | accepted _ _ => exact List.nil_sublist _
  | alone opening | briefed opening _ _ _ => simp [opening.uncalled_briefing, Act.called?]
  | called env opening => simp [opening.uncalled, Act.called?]
  | answered opening _ _ _ => simp [opening.calls.1, Act.called?]

theorem Opening.proper (opening : Opening crew task stage acts) : Proper crew acts := by
  induction opening with
  | accepted undone judged => exact Proper.nil.concat ⟨undone, _, judged⟩
  | alone _ ih => exact ih.concat trivial
  | briefed _ some summarizer summary ih => exact ih.concat ⟨some, _, _, summarizer, summary⟩
  | called env opening ih =>
    exact ih.concat ⟨opening.judged.1, opening.judged.2, .of_uncalled opening.uncalled,
      opening.informed⟩
  | answered opening _ _ _ ih => exact ih.concat opening.calls.2

theorem Story.fates (tale : Story crew task fate story) : fatesOf story = [(task, fate)] := by
  cases tale with
  | done _ | turnedDown _ _ => rfl
  | unread _ opening | misbriefed opening _ _ _ => simp [opening.fates]
  | refused opening _ => simp [opening.fates]
  | unsaved _ opening => simp [opening.fates]
  | late opening _ | blank opening _ => simp [opening.fates, Act.fate?]
  | saved opening => simp [opening.fates, Act.fate?]

theorem Story.decided (tale : Story crew task fate story) :
    story.filterMap Act.decided? = [task] := by
  cases tale with
  | done _ | turnedDown _ _ => rfl
  | unread _ opening | misbriefed opening _ _ _ | unsaved _ opening =>
    simp [opening.decided, Act.decided?]
  | refused opening _ | late opening _ | blank opening _ => simp [opening.decided, Act.decided?]
  | saved opening => simp [opening.decided, Act.decided?]

theorem Story.calls (tale : Story crew task fate story) :
    (story.filterMap Act.called?).Sublist [task] := by
  cases tale with
  | done _ | turnedDown _ _ => exact List.nil_sublist _
  | unread _ opening | misbriefed opening _ _ _ => simp [opening.uncalled_briefing, Act.called?]
  | late opening _ | blank opening _ => simp [opening.calls.1, Act.called?]
  | refused opening _ => simp [opening.calls.1, Act.called?]
  | unsaved _ opening | saved opening => simp [opening.answers.1, Act.called?]

theorem Story.quiet (tale : Story crew task fate story) : Quiet story := by
  cases tale with
  | done _ | turnedDown _ _ => exact .of_uncalled rfl
  | unread _ opening | misbriefed opening _ _ _ =>
    exact .of_uncalled (by simp [opening.uncalled_briefing, Act.called?])
  | @late call acts opening _ =>
    refine .of_settled task (by simp [opening.calls.1, Act.called?])
      ⟨call, .requeued, ?_, ?_, ?_⟩ <;> simp
  | @refused call acts fault opening _ =>
    refine .of_settled task (by simp [opening.calls.1, Act.called?]) ⟨call, fault.state, ?_, ?_, ?_⟩
    · simp
    · simp
    · exact fun success => absurd success fault.state_ne_succeeded
  | @blank call acts opening _ =>
    refine .of_settled task (by simp [opening.calls.1, Act.called?])
      ⟨call, .failed, ?_, ?_, ?_⟩ <;> simp
  | unsaved fault opening =>
    obtain ⟨called, _, call, returned, _, _⟩ := opening.answers
    refine .of_settled task (by simp [called, Act.called?]) ⟨call, fault.state, ?_, ?_, ?_⟩
    · simp [returned]
    · simp
    · exact fun success => absurd success fault.state_ne_succeeded
  | @saved result acts opening =>
    obtain ⟨called, _, call, returned, _, answer⟩ := opening.answers
    refine .of_settled task (by simp [called, Act.called?])
      ⟨call, .succeeded, ?_, ?_, fun _ => ⟨result, answer, ?_⟩⟩
    · simp [returned]
    · simp
    · simp

theorem Story.proper (tale : Story crew task fate story) : Proper crew story := by
  cases tale with
  | done done => exact Proper.nil.concat done
  | turnedDown undone judged => exact Proper.nil.concat ⟨undone, _, judged⟩
  | unread _ opening | unsaved _ opening => exact opening.proper.concat opening.judged.1
  | misbriefed opening some summarizer summary =>
    refine opening.proper.close ?_ opening.judged.1 _
    exact ⟨some, _, _, summarizer, summary⟩
  | late opening _ | blank opening _ =>
    refine opening.proper.close ?_ opening.judged.1 _
    exact opening.calls.2
  | refused opening _ =>
    refine opening.proper.close ?_ opening.judged.1 _
    exact opening.calls.2
  | saved opening =>
    refine opening.proper.close ?_ opening.judged.1 _
    exact ⟨opening.judged.1, opening.answers.2⟩

theorem Telling.decided (telling : Telling crew acts) :
    acts.filterMap Act.decided? = (fatesOf acts).map Prod.fst := by
  induction telling with
  | nil => rfl
  | add _ tale ih =>
    simp only [List.filterMap_append, ih, tale.decided, fatesOf_append, tale.fates, List.map_append,
      List.map_cons, List.map_nil]

theorem Telling.calls (telling : Telling crew acts) :
    (acts.filterMap Act.called?).Sublist (acts.filterMap Act.decided?) := by
  induction telling with
  | nil => exact List.nil_sublist _
  | add _ tale ih =>
    simp only [List.filterMap_append, tale.decided]
    exact ih.append tale.calls

theorem Telling.quiet (telling : Telling crew acts) : Quiet acts := by
  induction telling with
  | nil => exact .of_uncalled rfl
  | add _ tale ih => exact ih.append tale.quiet

theorem Telling.proper (telling : Telling crew acts) : Proper crew acts := by
  induction telling with
  | nil => exact .nil
  | add telling tale ih => exact ih.append telling.quiet tale.proper

end Stories
end CodeAudit
