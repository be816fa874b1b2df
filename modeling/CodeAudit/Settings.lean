import CodeAudit.Duration
import CodeAudit.Fault

/-! Settings of a run: what may be configured, what unset values become, and which values are
refused. -/
namespace CodeAudit

namespace Settings

structure Logging where
  level : Text := []
  pattern : Text := []
  includeTraceContext : Bool := false
deriving DecidableEq, Repr

inductive Database where
  | memory
  | sqlite (path : Text) (walMode : Bool)
deriving DecidableEq, Repr

structure Analysis where
  maxTreeDepth : UInt32 := 0
  /-- Zero is no cap. -/
  maxTreeNodes : UInt32 := 0
  /-- One of the modes below, or a number that means nothing. -/
  graphMode : Int32 := 0
deriving DecidableEq, Repr

structure Scheduling where
  workers : UInt32 := 0
  taskTimeout : Option Duration := none
  summarizeGroupResults : Bool := false
deriving DecidableEq, Repr

structure Observability where
  tracingEnabled : Bool := false
  endpoint : Text := []
  transport : Int32 := 0
deriving DecidableEq, Repr

def unspecifiedMode : Int32 := 0
def lexicalMode : Int32 := 1
def disabledMode : Int32 := 2

end Settings

structure Settings where
  projectId : Text := []
  logging : Settings.Logging := {}
  database : Option Settings.Database := none
  analysis : Settings.Analysis := {}
  scheduler : Settings.Scheduling := {}
  observability : Settings.Observability := {}
deriving DecidableEq, Repr

namespace Settings

def defaultTreeDepth : UInt32 := 3
def defaultWorkers : UInt32 := 5
def defaultTimeout : Duration := { seconds := 300 }

/-- Fills in what is unset. Zero counts as unset for the tree depth, the graph mode and the
workers. -/
def withDefaults (s : Settings) : Settings :=
  { s with
    database := some (s.database.getD .memory)
    analysis :=
      { s.analysis with
        maxTreeDepth :=
          if s.analysis.maxTreeDepth = 0 then defaultTreeDepth else s.analysis.maxTreeDepth
        graphMode :=
          if s.analysis.graphMode = unspecifiedMode then lexicalMode else s.analysis.graphMode }
    scheduler :=
      { s.scheduler with
        workers := if s.scheduler.workers = 0 then defaultWorkers else s.scheduler.workers
        taskTimeout := some (s.scheduler.taskTimeout.getD defaultTimeout) } }

/-- The first value that no run can work with. -/
def flaw? (s : Settings) : Option SettingsFault :=
  if s.analysis.maxTreeDepth < 1 then some .zeroTreeDepth
  else if s.scheduler.workers < 1 then some .zeroWorkers
  else if (s.scheduler.taskTimeout.getD {}).nanoseconds < 0 then some .negativeTimeout
  else
    match s.database with
    | some (.sqlite [] _) => some .noTablePath
    | _ => none

def validate (s : Settings) : Except Fault Unit :=
  match s.flaw? with
  | some flaw => .error (.settings flaw)
  | none => .ok ()

end Settings
end CodeAudit
