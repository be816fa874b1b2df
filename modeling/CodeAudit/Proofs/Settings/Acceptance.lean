import CodeAudit.Settings.Reader

/-! Which settings are accepted: those whose values pass every check once the defaults are in. -/
namespace CodeAudit
namespace Settings

/-- Values that every check passes. -/
structure Workable (s : Settings) : Prop where
  depth : 1 ≤ s.analysis.maxTreeDepth
  workers : 1 ≤ s.scheduler.workers
  timeout : 0 ≤ (s.scheduler.taskTimeout.getD {}).nanoseconds
  path : ∀ log, s.database ≠ some (.sqlite [] log)

variable {s : Settings} {file : DocumentFile}

theorem flaw?_eq_none_iff : s.flaw? = none ↔ s.Workable := by
  unfold flaw?
  constructor
  · intro sound
    split at sound
    · contradiction
    next depth =>
      split at sound
      · contradiction
      next workers =>
        split at sound
        · contradiction
        next timeout =>
          refine ⟨UInt32.not_lt.mp depth, UInt32.not_lt.mp workers, Int64.not_lt.mp timeout,
            fun log given => ?_⟩
          rw [given] at sound
          contradiction
  · rintro ⟨depth, workers, timeout, path⟩
    rw [if_neg (UInt32.not_lt.mpr depth), if_neg (UInt32.not_lt.mpr workers),
      if_neg (Int64.not_lt.mpr timeout)]
    split
    next log given => exact absurd given (path log)
    next => rfl

theorem validate_eq_ok_iff : s.validate = .ok () ↔ s.Workable := by
  rw [← flaw?_eq_none_iff, validate]
  rcases s.flaw? with _ | flaw
  · simp
  · simp

/-- What is loaded is what a document gives, with the defaults filled in and checked after that. -/
theorem load_eq_ok_iff : load file = .ok s ↔ ∃ document given, file = .parsed document ∧
    isEncodable document = true ∧ ofDocument? document = some given ∧ s = given.withDefaults ∧
      s.Workable := by
  constructor
  · intro loaded
    rcases file with _ | _ | document
    · contradiction
    · contradiction
    · simp only [load] at loaded
      split at loaded
      · contradiction
      next encodable =>
        rcases read : ofDocument? document with _ | given
        · rw [read] at loaded
          contradiction
        · rw [read] at loaded
          rcases checked : given.withDefaults.validate with fault | ⟨⟩
          · simp [checked, bind, Except.bind] at loaded
          · simp only [checked, bind, Except.bind, pure, Except.pure, Except.ok.injEq] at loaded
            subst loaded
            exact ⟨document, given, rfl,
              by simpa using encodable, read, rfl, validate_eq_ok_iff.mp checked⟩
  · rintro ⟨document, given, rfl, encodable, read, rfl, workable⟩
    simp only [load, encodable, Bool.not_true, Bool.false_eq_true, if_false, read]
    rw [validate_eq_ok_iff.mpr workable]
    rfl

theorem withDefaults_graphMode (given : Settings) :
    given.withDefaults.analysis.graphMode ≠ unspecifiedMode := by
  simp only [withDefaults]
  split
  · decide
  · assumption

end Settings
end CodeAudit
