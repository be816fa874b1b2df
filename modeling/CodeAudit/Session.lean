import CodeAudit.BusinessFlow
import CodeAudit.CallGraph.Mention
import CodeAudit.GroupSummary
import CodeAudit.ScanExecutor
import CodeAudit.Scheduler
import CodeAudit.Settings
import CodeAudit.Store.Disk
import CodeAudit.Store.Memory

/-! Puts the parts together as the settings ask: the analysis of a project, its task store and its
scheduler. -/
namespace CodeAudit

/-- The read-only analysis of one project. -/
structure AnalysisSession where
  graph : CallGraph
  index : FunctionIndex
  trees : TreeBuilder
  flows : FlowBuilder

namespace Settings

def analyzer (s : Settings) : Except Fault CallGraph.Analyzer :=
  if s.analysis.graphMode = disabledMode then .ok .disabled
  else if s.analysis.graphMode = unspecifiedMode ∨ s.analysis.graphMode = lexicalMode then
    .ok .lexical
  else .error (.settings .unknownGraphMode)

/-- Analyzes the records and makes the builders over them. -/
def analysisSession (s : Settings) (records : List FunctionRecord) :
    Except Fault AnalysisSession × List Log.Line :=
  match s.analyzer with
  | .error fault => (.error fault, [])
  | .ok analyzer =>
      let (graph, log) := analyzer.analyze records
      let index : FunctionIndex := { records }
      let trees : TreeBuilder :=
        { graph, index, maxNodes := s.analysis.maxTreeNodes.toUInt64 }
      let flows := FlowBuilder.assemble (some trees) (some index) s.analysis.maxTreeDepth.toUInt64
      (flows.map (fun flows => { graph, index, trees, flows }), log)

/-- A store of either kind. -/
inductive OpenStore where
  | memory (store : MemoryStore)
  | table (store : OpenTable)

/-- Opens the store; memory is the backend when none is set. -/
def openStore (s : Settings) (disk : Disk) : Except Fault OpenStore × List Log.Line :=
  match s.database with
  | some (.sqlite path log) =>
      match disk.connect path log with
      | .error fault => (.error fault, [])
      | .ok store =>
          (.ok (.table store),
           [Log.info "Task store opened" [.text "backend" (utf8 "sqlite"), .text "path" path]])
  | some .memory | none =>
      (.ok (.memory {}), [Log.info "Task store opened" [.text "backend" (utf8 "memory")]])

def schedulerOptions (s : Settings) : Scheduler.Options :=
  { workers := s.scheduler.workers.toUInt64
    limit := (s.scheduler.taskTimeout.getD {}).milliseconds.toInt
    summarize := s.scheduler.summarizeGroupResults }

def configuredLine (options : Scheduler.Options) : Log.Line :=
  Log.info "Scheduler configured"
    [.word "workers" options.workers, .int "task_timeout_ms" options.limit,
     .bool "summarize_group_results" options.summarize]

/-- A scheduler that asks one client both for scans and for summaries. -/
def composeScheduler {σ τ ε : Type} [TaskStore σ τ] (s : Settings) (store : Option σ)
    (client : Option (Client ε)) : Except Fault (σ × Scheduler ε) × List Log.Line :=
  match Component.scheduler.require client with
  | .error fault => (.error fault, [])
  | .ok client =>
      let options := s.schedulerOptions
      (Scheduler.assemble store (some (ScanExecutor.execute client))
         (some (GroupSummary.summarize (some client))) options,
       [configuredLine options])

end Settings
end CodeAudit
