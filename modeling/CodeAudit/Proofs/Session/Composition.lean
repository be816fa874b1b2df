import CodeAudit.Proofs.Settings.Acceptance
import CodeAudit.Session

/-! What accepted settings make. A scheduler can always be put together from them, and a session as
soon as their graph mode means something, which no check looks at. -/
namespace CodeAudit
namespace Settings

variable {s : Settings} {records : List FunctionRecord}

/-- The graph mode stands for a way of finding relationships. -/
def KnowsMode (s : Settings) : Prop :=
  s.analysis.graphMode = disabledMode ∨ s.analysis.graphMode = unspecifiedMode ∨
    s.analysis.graphMode = lexicalMode

theorem analyzer_known (known : s.KnowsMode) : ∃ analyzer, s.analyzer = .ok analyzer := by
  unfold analyzer
  split
  · exact ⟨_, rfl⟩
  next enabled =>
    rw [if_pos (known.resolve_left enabled)]
    exact ⟨_, rfl⟩

theorem analyzer_unknown (unknown : ¬s.KnowsMode) :
    s.analyzer = .error (.settings .unknownGraphMode) := by
  obtain ⟨enabled, meaningless⟩ := not_or.mp unknown
  rw [analyzer, if_neg enabled, if_neg meaningless]

def sessionBy (s : Settings) (analyzer : CallGraph.Analyzer) (records : List FunctionRecord) :
    AnalysisSession :=
  let graph := (analyzer.analyze records).1
  let trees : TreeBuilder :=
    { graph, index := { records }, maxNodes := s.analysis.maxTreeNodes.toUInt64 }
  { graph, index := { records }, trees
    flows := { trees, index := { records }, maxDepth := s.analysis.maxTreeDepth.toUInt64 } }

theorem toUInt64_pos {n : UInt32} (positive : 1 ≤ n) : ¬n.toUInt64 < 1 := by
  rw [UInt64.not_lt, UInt64.le_iff_toNat_le, UInt32.toNat_toUInt64]
  exact UInt32.le_iff_toNat_le.mp positive

theorem analysisSession_known (deep : 1 ≤ s.analysis.maxTreeDepth) {analyzer : CallGraph.Analyzer}
    (chosen : s.analyzer = .ok analyzer) :
    (s.analysisSession records).1 = .ok (s.sessionBy analyzer records) := by
  simp only [analysisSession, chosen, FlowBuilder.assemble, Component.require, bind, Except.bind]
  rw [if_neg (toUInt64_pos deep)]
  rfl

theorem analysisSession_unknown (unknown : ¬s.KnowsMode) :
    (s.analysisSession records).1 = .error (.settings .unknownGraphMode) := by
  simp only [analysisSession, analyzer_unknown unknown]

/-- A session comes from an analyzer, whether or not its settings have been checked. -/
theorem analysisSession_ok {session : AnalysisSession}
    (made : (s.analysisSession records).1 = .ok session) :
    ∃ analyzer, session = s.sessionBy analyzer records := by
  rcases chosen : s.analyzer with fault | analyzer
  · simp [analysisSession, chosen] at made
  · refine ⟨analyzer, ?_⟩
    simp only [analysisSession, chosen, FlowBuilder.assemble, Component.require, bind,
      Except.bind] at made
    split at made
    · contradiction
    · exact (Except.ok.inj made).symm

def schedulerBy {ε : Type} (s : Settings) (client : Client ε) : Scheduler ε :=
  { workers := s.schedulerOptions.workers
    crew :=
      { executor := ScanExecutor.execute client
        summarizer := if s.schedulerOptions.summarize then
          some (GroupSummary.summarize (some client)) else none
        limit := s.schedulerOptions.limit } }

theorem composeScheduler_eq {σ τ ε : Type} [TaskStore σ τ] (workable : s.Workable) (store : σ)
    (client : Client ε) :
    (s.composeScheduler (some store) (some client)).1 = .ok (store, s.schedulerBy client) := by
  have manned : ¬s.schedulerOptions.workers < 1 := toUInt64_pos workable.workers
  simp only [composeScheduler, Component.require, Scheduler.assemble, bind, Except.bind]
  rw [if_neg manned]
  rfl

theorem composeScheduler_workable {σ τ ε : Type} [TaskStore σ τ] (workable : s.Workable) (store : σ)
    (client : Client ε) :
    ∃ scheduler, (s.composeScheduler (some store) (some client)).1 = .ok (store, scheduler) :=
  ⟨_, composeScheduler_eq workable store client⟩

/-- Accepted settings make a scheduler over every store and for every client, and a session of any
records exactly if their graph mode is known. -/
theorem accepted_composes {file : DocumentFile} (loaded : load file = .ok s) :
    (∀ {σ τ ε : Type} [TaskStore σ τ] (store : σ) (client : Client ε),
      ∃ scheduler, (s.composeScheduler (some store) (some client)).1 = .ok (store, scheduler)) ∧
    ∀ records, (∃ session, (s.analysisSession records).1 = .ok session) ↔
      s.analysis.graphMode = lexicalMode ∨ s.analysis.graphMode = disabledMode := by
  obtain ⟨_, given, _, _, _, rfl, workable⟩ := load_eq_ok_iff.mp loaded
  refine ⟨composeScheduler_workable workable, fun records => ⟨?_, ?_⟩⟩
  · rintro ⟨session, made⟩
    by_cases known : given.withDefaults.KnowsMode
    · -- Where no mode is set the defaults have set one.
      rcases known with disabled | unset | lexical
      · exact .inr disabled
      · exact absurd unset (withDefaults_graphMode given)
      · exact .inl lexical
    · rw [analysisSession_unknown known] at made
      contradiction
  · intro mode
    have known : given.withDefaults.KnowsMode := mode.elim (fun lexical => .inr (.inr lexical)) .inl
    obtain ⟨analyzer, chosen⟩ := analyzer_known known
    exact ⟨_, analysisSession_known workable.depth chosen⟩

def modeFile (mode : String) : DocumentFile :=
  .parsed (.mapping [(utf8 "analysis", .mapping [(utf8 "call_graph_mode", .scalar (utf8 mode))])])

theorem accepted_composes_disabled :
    let s : Settings := withDefaults { analysis := { graphMode := disabledMode } }
    let client : Client Nat := fun _ asked => (.immediate (.ok []), asked + 1)
    load (modeFile "CALL_GRAPH_MODE_DISABLED") = .ok s ∧
      (∃ scheduler, (s.composeScheduler (some ({} : MemoryStore)) (some client)).1 =
        .ok ({}, scheduler)) ∧
      ∃ session, (s.analysisSession [{ name := utf8 "Vault.pay", content := utf8 "pay" }]).1 =
        .ok session := by
  intro s client
  have loaded : load (modeFile "CALL_GRAPH_MODE_DISABLED") = .ok s := rfl
  obtain ⟨scheduler, session⟩ := accepted_composes loaded
  exact ⟨loaded, scheduler ({} : MemoryStore) client, (session _).mpr (.inr rfl)⟩

/-- A number that stands for no mode is accepted, and nothing can be analyzed then. -/
theorem unknown_mode_accepted : ∃ s, load (modeFile "7") = .ok s ∧
    ∀ records, (s.analysisSession records).1 = .error (.settings .unknownGraphMode) := by
  refine ⟨withDefaults { analysis := { graphMode := 7 } }, rfl, fun records =>
    analysisSession_unknown ?_⟩
  simp only [KnowsMode]
  decide

end Settings
end CodeAudit
