import CodeAudit.Proofs.Settings.Layouts

/-! The kinds of values that settings have, and how the records of settings are laid out. -/
namespace CodeAudit
namespace Settings

open Text

namespace Kind

def ofScalars {β : Type} (unset : β) (value? : Document → Option β) (Writes : β → Text → Prop)
    (Writable : β → Prop) (writes : ∀ {x}, Writable x → x = unset ∨ ∃ t, Writes x t)
    (sound : ∀ {x t}, Writes x t → value? (.scalar t) = some x ∧ isEncodable (.scalar t) = true) :
    Kind β where
  unset
  read d _ := value? d
  Writes x d := ∃ t, d = .scalar t ∧ Writes x t
  Writable
  Legible _ := True
  writes writable := (writes writable).imp_right fun ⟨t, written⟩ => ⟨.scalar t, t, rfl, written⟩
  legible_unset := trivial
  not_null := by
    rintro x d ⟨t, rfl, -⟩
    rfl
  encodable := by
    rintro x d ⟨t, rfl, writes⟩ -
    exact (sound writes).2
  read_legible := by
    rintro x d ⟨t, rfl, writes⟩ -
    exact (sound writes).1
  read_illegible _ illegible := absurd trivial illegible

section Scalars

variable {β : Type} {unset x : β} {value? : Document → Option β} {Writes : β → Text → Prop}
  {Writable : β → Prop}

@[simp] theorem legible_ofScalars {writes sound} :
    (ofScalars unset value? Writes Writable writes sound).Legible x :=
  trivial

@[simp] theorem writable_ofScalars {writes sound} :
    (ofScalars unset value? Writes Writable writes sound).Writable x ↔ Writable x := Iff.rfl

end Scalars

def text : Kind Text where
  unset := []
  read d _ := text? d
  Writes t d := d = .scalar t
  Writable _ := True
  Legible := Word
  writes _ := .inr ⟨_, rfl⟩
  legible_unset := word_nil
  not_null := by
    rintro t _ rfl
    rfl
  encodable := by
    rintro t _ rfl word
    exact isEncodable_word word
  read_legible := by
    rintro t _ rfl word
    exact text?_word word
  read_illegible := by
    rintro t _ rfl other -
    exact text?_other other

@[simp] theorem legible_text {t : Text} : text.Legible t ↔ Word t := Iff.rfl

@[simp] theorem writable_text {t : Text} : text.Writable t := trivial

def truth : Kind Bool :=
  ofScalars false truth? (fun value t => t = truthText value) (fun _ => True)
    (fun _ => .inr ⟨_, rfl⟩) (by
    rintro value _ rfl
    exact ⟨truth?_truthText value, isEncodable_truthText value⟩)

def count : Kind UInt32 :=
  ofScalars 0 count? (fun n t => t = ofInt n.toNat) (fun _ => True) (fun _ => .inr ⟨_, rfl⟩) (by
    rintro n _ rfl
    exact ⟨count?_ofInt n, isEncodable_ofInt (natAbs_count n)⟩)

/-- A mode is written as its number or, if it has one, by its name. -/
def mode (names : List String) (words : ∀ n ∈ names, Word (utf8 n))
    (distinct : names.Pairwise (fun m n => utf8 m ≠ utf8 n)) : Kind Int32 :=
  ofScalars 0 (mode? names)
    (fun mode t => t = ofInt mode.toInt ∨ ∃ (i : Nat) (name : String), mode = Int32.ofNat i ∧
      names[i]? = some name ∧
      t = utf8 name)
    (fun _ => True) (fun _ => .inr ⟨_, .inl rfl⟩)
    (by
      rintro mode _ (rfl | ⟨i, name, rfl, named, rfl⟩)
      · exact ⟨mode?_ofInt names mode, isEncodable_ofInt (natAbs_mode mode)⟩
      · exact ⟨mode?_name words distinct named,
          isEncodable_word (words name (List.mem_of_getElem? named))⟩)

/-- A length of time, if one is set. -/
def duration : Kind (Option Duration) :=
  ofScalars none (fun d => (duration? d).map some)
    (fun x t => ∃ d, x = some d ∧ InRange d ∧ t = durationText d)
    (fun x => ∀ d, x = some d → InRange d)
    (by
      rintro (_ | d) writable
      · exact .inl rfl
      · exact .inr ⟨_, d, rfl, writable d rfl, rfl⟩)
    (by
      rintro _ _ ⟨d, rfl, range, rfl⟩
      exact ⟨by rw [duration?_durationText range]; rfl, isEncodable_word (durationText_word range)⟩)

end Kind

def loggingLayout : Layout Logging where
  items := [
    ⟨"level", "level", .text, Logging.level, fun level s => { s with level }, fun _ _ => rfl⟩,
    ⟨"pattern", "pattern", .text, Logging.pattern, fun pattern s => { s with pattern },
      fun _ _ => rfl⟩,
    ⟨"include_trace_context", "includeTraceContext", .truth, Logging.includeTraceContext,
      fun includeTraceContext s => { s with includeTraceContext }, fun _ _ => rfl⟩]
  unset := {}
  field? := loggingField?

def sqliteLayout : Layout (Text × Bool) where
  items := [
    ⟨"path", "path", .text, Prod.fst, fun path s => (path, s.2), fun _ _ => rfl⟩,
    ⟨"wal_mode", "walMode", .truth, Prod.snd, fun wal s => (s.1, wal), fun _ _ => rfl⟩]
  unset := ([], false)
  field? := sqliteField?

def analysisLayout : Layout Analysis where
  items := [
    ⟨"max_call_tree_depth", "maxCallTreeDepth", .count, Analysis.maxTreeDepth,
      fun maxTreeDepth s => { s with maxTreeDepth }, fun _ _ => rfl⟩,
    ⟨"max_tree_nodes", "maxTreeNodes", .count, Analysis.maxTreeNodes, fun maxTreeNodes s =>
      { s with maxTreeNodes },
      fun _ _ => rfl⟩,
    ⟨"call_graph_mode", "callGraphMode",
      .mode graphModeNames graphModeNames_word graphModeNames_distinct,
      Analysis.graphMode, fun graphMode s => { s with graphMode }, fun _ _ => rfl⟩]
  unset := {}
  field? := analysisField?

def Item.timeout : Item Scheduling :=
  ⟨"task_timeout", "taskTimeout", .duration, Scheduling.taskTimeout, fun taskTimeout s =>
    { s with taskTimeout },
    fun _ _ => rfl⟩

theorem Item.timeout_set :
    timeout.set = fun d s => (duration? d).map
      (fun timeout => { s with taskTimeout := some timeout }) := by
  funext d s
  exact Option.map_map ..

def schedulingLayout : Layout Scheduling where
  items := [
    ⟨"workers", "workers", .count, Scheduling.workers, fun workers s => { s with workers },
      fun _ _ => rfl⟩,
    .timeout,
    ⟨"summarize_group_results", "summarizeGroupResults", .truth, Scheduling.summarizeGroupResults,
      fun summarizeGroupResults s => { s with summarizeGroupResults }, fun _ _ => rfl⟩]
  unset := {}
  field? := schedulerField?
  known := by
    simp only [List.forall_mem_cons, isKey_iff]
    refine ⟨?workers, ?timeout, ?summaries, nofun⟩
    case timeout =>
      rw [Item.timeout_set]
      rintro _ (rfl | rfl)
      all_goals rfl
    all_goals
      rintro _ (rfl | rfl)
      all_goals rfl
  independent := by simp [Item.Independent, Item.timeout]
  ext := by
    rintro ⟨⟩ ⟨⟩ same
    simpa [Item.timeout] using same

def observabilityLayout : Layout Observability where
  items := [
    ⟨"tracing_enabled", "tracingEnabled", .truth, Observability.tracingEnabled,
      fun tracingEnabled s => { s with tracingEnabled }, fun _ _ => rfl⟩,
    ⟨"otlp_endpoint", "otlpEndpoint", .text, Observability.endpoint, fun endpoint s =>
      { s with endpoint },
      fun _ _ => rfl⟩,
    ⟨"transport", "transport", .mode transportNames transportNames_word transportNames_distinct,
      Observability.transport, fun transport s => { s with transport }, fun _ _ => rfl⟩]
  unset := {}
  field? := observabilityField?

theorem readFields_sqlite {settings : Document} (given : settings.isNull = false)
    (database : Option Database) :
    readFields databaseField? (.mapping [(utf8 "sqlite", settings)]) database =
      match database with
      | some _ => none
      | none =>
          (readFields sqliteField? settings ([], false)).map
            (fun (path, walMode) => some (.sqlite path walMode)) := by
  have known : databaseField? (utf8 "sqlite") = some fun d s =>
      match s with
      | some _ => none
      | none => (readFields sqliteField? d ([], false)).map
          (fun (path, wal) => some (.sqlite path wal)) := rfl
  simp [readFields, known, given]

/-- The one backend that is given, if any. -/
def Kind.database : Kind (Option Database) where
  unset := none
  read := readFields databaseField?
  Writes
    | none, d => d = .mapping []
    | some .memory, d => d = .mapping [(utf8 "memory", .mapping [])]
    | some (.sqlite path walMode), d =>
        ∃ settings, d = .mapping [(utf8 "sqlite", settings)] ∧
          sqliteLayout.Writes (path, walMode) settings
  Writable
    | some (.sqlite path walMode) => sqliteLayout.Writable (path, walMode)
    | _ => True
  Legible
    | some (.sqlite path walMode) => sqliteLayout.Legible (path, walMode)
    | _ => True
  writes := by
    rintro (_ | _ | _) writable
    · exact .inl rfl
    · exact .inr ⟨_, rfl⟩
    · obtain ⟨settings, written⟩ := sqliteLayout.exists_writes writable
      exact .inr ⟨_, settings, rfl, written⟩
  legible_unset := trivial
  not_null := by
    rintro (_ | _ | _) d
    · rintro rfl
      rfl
    · rintro rfl
      rfl
    · rintro ⟨settings, rfl, -⟩
      rfl
  encodable := by
    rintro (_ | _ | ⟨path, walMode⟩) d
    · rintro rfl -
      rfl
    · rintro rfl -
      rfl
    · rintro ⟨settings, rfl, written⟩ legible
      simp [isEncodable, haveEncodable, sqliteLayout.toKind.encodable written legible]
  read_legible := by
    rintro (_ | _ | ⟨path, walMode⟩) d
    · rintro rfl -
      rfl
    · rintro rfl -
      rfl
    · rintro ⟨settings, rfl, written⟩ legible
      have read : readFields sqliteField? settings ([], false) = some (path, walMode) :=
        sqliteLayout.toKind.read_legible written legible
      simp only [readFields_sqlite (sqliteLayout.toKind.not_null written), read, Option.map_some]
  read_illegible := by
    rintro (_ | _ | ⟨path, walMode⟩) d
    · exact fun _ illegible => absurd trivial illegible
    · exact fun _ illegible => absurd trivial illegible
    · rintro ⟨settings, rfl, written⟩ illegible y
      have unread : readFields sqliteField? settings ([], false) = none :=
        sqliteLayout.toKind.read_illegible written illegible _
      rw [readFields_sqlite (sqliteLayout.toKind.not_null written)]
      rcases y with _ | database
      · simp only [unread, Option.map_none]
      · rfl

def Item.project : Item Settings :=
  ⟨"project_id", "projectId", .text, Settings.projectId, fun projectId s => { s with projectId },
    fun _ _ => rfl⟩

def Item.scheduler : Item Settings :=
  ⟨"scheduler", "scheduler", schedulingLayout.toKind, Settings.scheduler, fun scheduler s =>
    { s with scheduler },
    fun _ _ => rfl⟩

def layout : Layout Settings where
  items := [
    .project,
    ⟨"logging", "logging", loggingLayout.toKind, Settings.logging, fun logging s =>
      { s with logging },
      fun _ _ => rfl⟩,
    ⟨"database", "database", .database, Settings.database, fun database s => { s with database },
      fun _ _ => rfl⟩,
    ⟨"analysis", "analysis", analysisLayout.toKind, Settings.analysis, fun analysis s =>
      { s with analysis },
      fun _ _ => rfl⟩,
    .scheduler,
    ⟨"observability", "observability", observabilityLayout.toKind, Settings.observability,
      fun observability s => { s with observability }, fun _ _ => rfl⟩]
  unset := {}
  field? := rootField?
  independent := by simp [Item.Independent, Item.project, Item.scheduler]
  ext := by
    rintro ⟨⟩ ⟨⟩ same
    simpa [Item.project, Item.scheduler] using same

end Settings
end CodeAudit
