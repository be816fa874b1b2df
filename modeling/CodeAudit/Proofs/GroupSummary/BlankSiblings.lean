import CodeAudit.GroupSummary

/-! Siblings with a blank result leave no trace: neither the summary nor what the client is asked,
what becomes of it and what is logged depends on them. A summary that there is says something. -/
namespace CodeAudit

variable {ε : Type}

def Client.recorded (client : Client ε) : Client (ε × List Text) := fun prompt (env, asked) =>
  let (call, after) := client prompt env
  (call, after, asked ++ [prompt])

theorem Text.isBlank_eq_false {text : Text} : text.isBlank = false ↔
    ∃ b ∈ text, isBlankByte b = false := by
  simp only [Text.isBlank, List.all_eq_false, Bool.not_eq_true]

namespace GroupSummary

def telling (completed : List Task) : List Task := completed.filter (fun t => !t.result.isBlank)

/-- What is asked about siblings that all have something to tell. -/
def prompts (client : Option (Client ε)) (siblings : List Task) : List Text :=
  if client.isSome ∧ siblings ≠ [] then [Prompt.groupSummary siblings] else []

/-- Asked about siblings, the client comes back with an answer or a fault. -/
def Answers (client : Option (Client ε)) (env : ε) (siblings : List Task)
    (answer : Except Fault Text) : Prop :=
  ∃ ask, client = some ask ∧ (ask (Prompt.groupSummary siblings) env).1.answer = answer

def Silent (client : Option (Client ε)) (env : ε) (siblings : List Task) : Prop :=
  client = none ∨ ∃ fault, Answers client env siblings (.error fault)

/-- What a summary of siblings that all have something to tell has to be. -/
structure Condenses (client : Option (Client ε)) (env : ε) (siblings : List Task)
    (summary : Option Text) : Prop where
  filled : ∀ text ∈ summary, ∃ b ∈ text, isBlankByte b = false
  none_iff : summary = none ↔ siblings = [] ∨ ∃ text, Answers client env siblings (.ok text) ∧
    text.isBlank = true
  listed : siblings ≠ [] → Silent client env siblings → summary = some (listing siblings)
  answered : siblings ≠ [] → ∀ text, Answers client env siblings (.ok text) → text.isBlank = false →
    summary = some text

variable {client : Option (Client ε)} {env : ε} {siblings completed others : List Task}
  {summary other : Option Text} {answer reply : Except Fault Text} {text : Text}

theorem telling_telling (completed : List Task) :
    telling (telling completed) = telling completed := by
  simp only [telling, List.filter_filter, Bool.and_self]

/-- A summary reads the siblings that have something to tell and no others, wherever these stand. -/
theorem summarize_congr (client : Option (Client ε)) (same : telling completed = telling others) :
    summarize client completed = summarize client others := by
  funext env
  unfold telling at same
  unfold summarize
  rw [same]

/-- A record changes nothing but itself. -/
theorem summarize_recorded (client : Option (Client ε)) (completed : List Task) (env : ε)
    (asked : List Text) :
    summarize (client.map Client.recorded) completed (env, asked) =
      (summarize client completed env).mapState
        (fun after => (after, asked ++ prompts client (telling completed))) := by
  unfold summarize telling
  generalize completed.filter (fun t => !t.result.isBlank) = siblings
  rcases siblings with _ | ⟨first, rest⟩
  · simp [prompts, Reply.mapState]
  · rcases client with _ | ask
    · simp [prompts, Reply.mapState]
    · rcases came : (ask (Prompt.groupSummary (first :: rest)) env).1.answer with fault | text <;>
        simp [prompts, Reply.mapState, Client.recorded, came]

theorem summarize_nothing (none : telling completed = []) :
    (summarize client completed env).value = .ok Option.none := by
  unfold telling at none
  unfold summarize
  rw [none]

theorem summarize_listed (some : telling completed ≠ [])
    (silent : Silent client env (telling completed)) :
    (summarize client completed env).value = .ok (Option.some (listing (telling completed))) := by
  unfold telling at some silent ⊢
  unfold summarize
  split
  next none => exact absurd none some
  next =>
    rcases silent with rfl | ⟨fault, ask, rfl, came⟩
    · rfl
    · simp only [came]

theorem summarize_answered (some : telling completed ≠ [])
    (answers : Answers client env (telling completed) (.ok text)) :
    (summarize client completed env).value =
      .ok (if text.isBlank then none else Option.some text) := by
  unfold telling at some answers
  unfold summarize
  split
  next none => exact absurd none some
  next =>
    obtain ⟨ask, rfl, came⟩ := answers
    simp only [came]

theorem Answers.unique (answers : Answers client env siblings answer)
    (replies : Answers client env siblings reply) :
    answer = reply := by
  obtain ⟨ask, known, rfl⟩ := answers
  obtain ⟨_, same, rfl⟩ := replies
  obtain rfl := Option.some.inj (known.symm.trans same)
  rfl

theorem silent_or_answers (client : Option (Client ε)) (env : ε) (siblings : List Task) :
    Silent client env siblings ∨ ∃ text, Answers client env siblings (.ok text) := by
  rcases client with _ | ask
  · exact .inl (.inl rfl)
  · rcases came : (ask (Prompt.groupSummary siblings) env).1.answer with fault | text
    · exact .inl (.inr ⟨fault, ask, rfl, came⟩)
    · exact .inr ⟨text, ask, rfl, came⟩

theorem Silent.not_answers (silent : Silent client env siblings) :
    ¬Answers client env siblings (.ok text) := by
  rintro answers
  rcases silent with rfl | ⟨fault, fails⟩
  · obtain ⟨ask, known, _⟩ := answers
    contradiction
  · cases answers.unique fails

theorem listing_filled (some : siblings ≠ []) : ∃ b ∈ listing siblings, isBlankByte b = false := by
  obtain ⟨first, rest, rfl⟩ := List.exists_cons_of_ne_nil some
  exact ⟨42, List.mem_append_left _ (by decide), by decide⟩

theorem condenses_nothing : Condenses client env [] none where
  filled := nofun
  none_iff := by simp
  listed := fun some => absurd rfl some
  answered := fun some => absurd rfl some

theorem Silent.condenses (silent : Silent client env siblings) (some : siblings ≠ []) :
    Condenses client env siblings (Option.some (listing siblings)) where
  filled := by
    rintro _ ⟨⟩
    exact listing_filled some
  none_iff := by simp [some, silent.not_answers]
  listed := fun _ _ => rfl
  answered := fun _ _ answers => absurd answers silent.not_answers

theorem Answers.condenses (answers : Answers client env siblings (.ok text))
    (some : siblings ≠ []) :
    Condenses client env siblings (if text.isBlank then none else Option.some text) where
  filled := by
    intro summary given
    split at given
    · contradiction
    next filled =>
      obtain rfl := Option.some.inj given
      exact Text.isBlank_eq_false.mp (Bool.eq_false_iff.mpr filled)
  none_iff := by
    constructor
    · intro nothing
      split at nothing
      next blank => exact .inr ⟨text, answers, blank⟩
      · contradiction
    · rintro (none | ⟨other, again, blank⟩)
      · exact absurd none some
      · obtain rfl := Except.ok.inj (answers.unique again)
        exact if_pos blank
  listed := fun _ silent => absurd answers silent.not_answers
  answered := by
    intro _ other again filled
    obtain rfl := Except.ok.inj (answers.unique again)
    exact if_neg (Bool.eq_false_iff.mp filled)

/-- There is just one such summary. -/
theorem Condenses.unique (condenses : Condenses client env siblings summary)
    (again : Condenses client env siblings other) : summary = other := by
  have alike (blank : siblings = [] ∨ ∃ text, Answers client env siblings (.ok text) ∧
    text.isBlank = true) :
      summary = other := by
    rw [condenses.none_iff.mpr blank, again.none_iff.mpr blank]
  by_cases none : siblings = []
  · exact alike (.inl none)
  rcases silent_or_answers client env siblings with silent | ⟨text, answers⟩
  · rw [condenses.listed none silent, again.listed none silent]
  · cases filled : text.isBlank with
    | true => exact alike (.inr ⟨text, answers, filled⟩)
    | false =>
      rw [condenses.answered none text answers filled, again.answered none text answers filled]

theorem summarize_condenses (client : Option (Client ε)) (completed : List Task) (env : ε) :
    ∃ summary, (summarize client completed env).value = .ok summary ∧
      Condenses client env (telling completed) summary := by
  by_cases none : telling completed = []
  · refine ⟨_, summarize_nothing none, ?_⟩
    rw [none]
    exact condenses_nothing
  rcases silent_or_answers client env (telling completed) with silent | ⟨text, answers⟩
  · exact ⟨_, summarize_listed none silent, silent.condenses none⟩
  · exact ⟨_, summarize_answered none answers, answers.condenses none⟩

/-- Whatever the client does, siblings with a blank result make no difference, it is asked at most
once and about the others, and what comes back is the one summary of these that there can be. -/
theorem blank_siblings_ignored (client : Option (Client ε)) (completed : List Task) (env : ε)
    (asked : List Text) :
    summarize (client.map Client.recorded) (telling completed) =
      summarize (client.map Client.recorded) completed ∧
      summarize (client.map Client.recorded) completed (env, asked) =
        (summarize client completed env).mapState
          (fun after => (after, asked ++ prompts client (telling completed))) ∧
      ∃ summary, (summarize client completed env).value = .ok summary ∧
        ∀ other, Condenses client env (telling completed) other ↔ other = summary := by
  refine ⟨summarize_congr _ (telling_telling completed),
    summarize_recorded client completed env asked, ?_⟩
  obtain ⟨summary, given, condenses⟩ := summarize_condenses client completed env
  refine ⟨summary, given, fun other => ⟨fun again => again.unique condenses, ?_⟩⟩
  rintro rfl
  exact condenses

end GroupSummary
end CodeAudit
