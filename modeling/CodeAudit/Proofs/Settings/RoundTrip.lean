import CodeAudit.Proofs.Settings.Acceptance
import CodeAudit.Proofs.Settings.Schema

/-! Settings written as a document and loaded again. Everything but texts always comes back; a text
does exactly if it cannot be taken for a truth value or a number. -/
namespace CodeAudit
namespace Settings

/-- The document writes the settings: each scalar as its text, numbers in decimal, lengths of time
in seconds; what is unset may be left out. -/
def WrittenBy (s : Settings) (d : Document) : Prop := layout.Writes s d

def texts (s : Settings) : List Text :=
  let path :=
    match s.database with
    | some (.sqlite path _) => [path]
    | _ => []
  [s.projectId, s.logging.level, s.logging.pattern] ++ path ++ [s.observability.endpoint]

section Legible

variable {s : Settings}

theorem legible_logging : loggingLayout.Legible s.logging ↔
    Word s.logging.level ∧ Word s.logging.pattern := by
  simp [Layout.Legible, loggingLayout, Kind.truth]

theorem legible_sqlite {path : Text} {walMode : Bool} : sqliteLayout.Legible (path, walMode) ↔
    Word path := by
  simp [Layout.Legible, sqliteLayout, Kind.truth]

theorem legible_analysis : analysisLayout.Legible s.analysis := by
  simp [Layout.Legible, analysisLayout, Kind.count, Kind.mode]

theorem legible_scheduling : schedulingLayout.Legible s.scheduler := by
  simp [Layout.Legible, schedulingLayout, Item.timeout, Kind.count, Kind.duration, Kind.truth]

theorem legible_observability : observabilityLayout.Legible s.observability ↔
    Word s.observability.endpoint := by
  simp [Layout.Legible, observabilityLayout, Kind.truth, Kind.mode]

theorem legible_iff : layout.Legible s ↔ ∀ t ∈ s.texts, Word t := by
  unfold Layout.Legible
  simp only [layout, Item.project, Item.scheduler, List.forall_mem_cons, Kind.legible_text,
    Layout.toKind_legible,
    legible_logging, legible_analysis, legible_scheduling, legible_observability, texts]
  rcases s.database with _ | _ | ⟨path, walMode⟩
  · simp [Kind.database, and_assoc]
  · simp [Kind.database, and_assoc]
  · simp [Kind.database, legible_sqlite, and_assoc]

/-- Settings can be written down unless their time limit is out of range. -/
theorem exists_written (range : ∀ limit, s.scheduler.taskTimeout = some limit → InRange limit) :
    ∃ d, s.WrittenBy d := by
  have scheduling : schedulingLayout.Writable s.scheduler := by
    simpa [Layout.Writable, schedulingLayout, Item.timeout, Kind.count, Kind.duration, Kind.truth]
  have logging : loggingLayout.Writable s.logging := by
    simp [Layout.Writable, loggingLayout, Kind.truth]
  have database : Kind.database.Writable s.database := by
    rcases s.database with _ | _ | ⟨path, walMode⟩
    · trivial
    · trivial
    · simp [Kind.database, Layout.Writable, sqliteLayout, Kind.truth]
  have analysis : analysisLayout.Writable s.analysis := by
    simp [Layout.Writable, analysisLayout, Kind.count, Kind.mode]
  have observability : observabilityLayout.Writable s.observability := by
    simp [Layout.Writable, observabilityLayout, Kind.truth, Kind.mode]
  refine Layout.exists_writes ?_
  unfold Layout.Writable
  simp only [layout, List.forall_mem_cons]
  exact ⟨trivial, logging, database, analysis, scheduling, observability, List.forall_mem_nil _⟩

end Legible

/-- Accepted settings that a document writes are loaded from it exactly if none of their texts can
be taken for a truth value or a number. -/
theorem texts_survive_loading {s : Settings} {d : Document}
    (accepted : s.withDefaults.validate = .ok ()) (written : s.WrittenBy d) :
    load (.parsed d) = .ok s.withDefaults ↔ ∀ t ∈ s.texts, Word t := by
  rw [← legible_iff]
  constructor
  · intro loaded
    obtain ⟨_, given, ⟨⟩, -, read, -⟩ := load_eq_ok_iff.mp loaded
    by_cases legible : layout.Legible s
    · exact legible
    · have unread : ofDocument? d = none := layout.toKind.read_illegible written legible {}
      rw [unread] at read
      contradiction
  · intro legible
    exact load_eq_ok_iff.mpr ⟨d, s, rfl, layout.toKind.encodable written legible,
      layout.toKind.read_legible written legible, rfl, validate_eq_ok_iff.mp accepted⟩

/-- Written in another order and under other keys than they are listed. -/
theorem texts_survive_loading_reordered :
    let s : Settings :=
      { projectId := utf8 "audit-1",
        scheduler := { taskTimeout := some { seconds := 1, nanos := 500000000 } } }
    let d : Document := .mapping [
      (utf8 "scheduler", .mapping [(utf8 "taskTimeout", .scalar (utf8 "1.500s"))]),
      (utf8 "projectId", .scalar (utf8 "audit-1"))]
    s.withDefaults.validate = .ok () ∧ s.WrittenBy d ∧ load (.parsed d) = .ok s.withDefaults := by
  intro s d
  have accepted : s.withDefaults.validate = .ok () :=
    validate_eq_ok_iff.mpr ⟨by decide, by decide, by decide, by decide⟩
  have limit : schedulingLayout.Writes s.scheduler
      (.mapping [(utf8 "taskTimeout", .scalar (utf8 "1.500s"))]) := by
    refine ⟨[.timeout], _, rfl, ?_,
      .cons ⟨rfl, _, rfl, _, rfl, ⟨by decide, by decide, by decide⟩, rfl⟩ .nil, ?_⟩
    · exact (List.Sublist.cons _ (.cons_cons Item.timeout (.cons _ .slnil))).subperm
    · simp only [schedulingLayout, List.forall_mem_cons]
      exact ⟨.inr rfl, .inl List.mem_cons_self, .inr rfl, List.forall_mem_nil _⟩
  have written : s.WrittenBy d := by
    refine ⟨[.scheduler, .project], _, rfl, ?_, .cons ⟨rfl, limit⟩ (.cons ⟨rfl, rfl⟩ .nil), ?_⟩
    · have inOrder : List.Sublist [Item.project, Item.scheduler] layout.items :=
        .cons_cons _ (.cons _ (.cons _ (.cons _ (.cons_cons _ (.cons _ .slnil)))))
      exact ⟨_, .swap _ _ _, inOrder⟩
    · simp only [layout, List.forall_mem_cons]
      exact ⟨.inl (by simp), .inr rfl, .inr rfl, .inr rfl, .inl (by simp), .inr rfl,
        List.forall_mem_nil _⟩
  have words : ∀ t ∈ s.texts, Word t := by
    have project : Word (utf8 "audit-1") := word_of_startsWord (by decide)
    simp [s, texts, project, word_nil]
  exact ⟨accepted, written, (texts_survive_loading accepted written).mpr words⟩

/-- A project named by a number cannot be loaded, although such settings are accepted. -/
theorem numeric_project_refused :
    let s : Settings := { projectId := utf8 "2024" }
    let d : Document := .mapping [(utf8 "project_id", .scalar (utf8 "2024"))]
    s.withDefaults.validate = .ok () ∧ s.WrittenBy d ∧
      load (.parsed d) = .error (.settings .malformed) := by
  refine ⟨rfl, ⟨[.project], _, rfl, ?_, .cons ⟨rfl, rfl⟩ .nil, ?_⟩, rfl⟩
  · exact (List.Sublist.cons_cons Item.project (List.nil_sublist _)).subperm
  · simp only [layout, List.forall_mem_cons]
    exact ⟨.inl List.mem_cons_self, .inr rfl, .inr rfl, .inr rfl, .inr rfl, .inr rfl,
      List.forall_mem_nil _⟩

end Settings
end CodeAudit
