import CodeAudit.Text

/-!
Log lines: a level, a message and `key=value` fields. Pure code answers the lines it logs, in
order; a logger keeps those at or above its level.
-/
namespace CodeAudit

namespace Log

inductive Level where
  | trace | debug | info | warning | error | critical | off
deriving DecidableEq, Repr

namespace Level

def severity : Level → Nat
  | trace => 0 | debug => 1 | info => 2 | warning => 3 | error => 4 | critical => 5 | off => 6

def name : Level → String
  | trace => "trace" | debug => "debug" | info => "info" | warning => "warning"
  | error => "error" | critical => "critical" | off => "off"

/-- Full names and two short forms; a text that names no level switches logging off. -/
def ofText (t : Text) : Level :=
  if t = utf8 "warn" then .warning
  else if t = utf8 "err" then .error
  else ([trace, debug, info, warning, error, critical].find? (fun l => utf8 l.name = t)).getD .off

end Level

/-- A field's key and its printed value. -/
structure Field where
  key : Text
  value : Text
deriving DecidableEq, Repr

namespace Field

def text (key : String) (value : Text) : Field := ⟨utf8 key, value⟩

def int (key : String) (value : Int) : Field := ⟨utf8 key, Text.ofInt value⟩

def nat (key : String) (value : Nat) : Field := ⟨utf8 key, Text.ofNat value⟩

/-- An identifier is printed as the signed number with its bits. -/
def word (key : String) (value : UInt64) : Field := int key value.toInt64.toInt

def printBool (value : Bool) : Text := utf8 (if value then "true" else "false")

def bool (key : String) (value : Bool) : Field := ⟨utf8 key, printBool value⟩

def print (f : Field) : Text := f.key ++ utf8 "=" ++ f.value

end Field

structure Line where
  level : Level
  message : Text
  fields : List Field
deriving DecidableEq, Repr

/-- The message, then the fields, each after one space. -/
def Line.print (l : Line) : Text :=
  Text.join (utf8 " ") (l.message :: l.fields.map Field.print)

def debug (message : String) (fields : List Field) : Line := ⟨.debug, utf8 message, fields⟩

def info (message : String) (fields : List Field) : Line := ⟨.info, utf8 message, fields⟩

def warn (message : String) (fields : List Field) : Line := ⟨.warning, utf8 message, fields⟩

def error (message : String) (fields : List Field) : Line := ⟨.error, utf8 message, fields⟩

end Log
end CodeAudit
