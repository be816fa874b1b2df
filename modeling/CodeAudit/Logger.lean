import CodeAudit.Log
import CodeAudit.Settings

/-! The logger of a process: which lines it keeps and how it is set up. Variables of the environment
come before settings, also when they are empty, and settings before defaults, unless they are
empty. -/
namespace CodeAudit

structure Logger where
  name : Text
  level : Log.Level
  pattern : Text
  includeTraceContext : Bool
deriving DecidableEq, Repr

namespace Logger

/-- The variables that override settings. -/
structure Overrides where
  level : Option Text := none
  pattern : Option Text := none
  includeTraceContext : Option Text := none
deriving DecidableEq, Repr

def defaultName : Text := utf8 "auditflow"

def defaultLevel : Text := utf8 "info"

def defaultPattern : Text := utf8 "%Y-%m-%dT%H:%M:%S.%e%z [%^%l%$] [t%t] %v"

def choose (override : Option Text) (setting fallback : Text) : Text :=
  override.getD (if setting.isEmpty then fallback else setting)

def traceContext (overrides : Overrides) (settings : Settings.Logging) : Bool :=
  match overrides.includeTraceContext with
  | some value => value = utf8 "1" ∨ value = utf8 "true"
  | none => settings.includeTraceContext

/-- Sets up the logger there is, or a new one. -/
def configure (existing : Option Logger) (overrides : Overrides) (settings : Settings) : Logger :=
  { name := (existing.map Logger.name).getD defaultName
    level := .ofText (choose overrides.level settings.logging.level defaultLevel)
    pattern := choose overrides.pattern settings.logging.pattern defaultPattern
    includeTraceContext := traceContext overrides settings.logging }

/-- A line at or above the logger's level; nothing is logged at the level that switches logging
off. -/
def keeps (threshold : Log.Level) (line : Log.Line) : Bool :=
  threshold.severity ≤ line.level.severity && threshold != .off

def kept (threshold : Log.Level) (lines : List Log.Line) : List Log.Line :=
  lines.filter (keeps threshold)

end Logger
end CodeAudit
