import CodeAudit.Settings
import CodeAudit.Settings.Numeral

/-!
Settings out of a document. Scalars are first given a kind by their letters alone: `true` and
`false` are truth values, numerals are numbers, the rest is text. Each setting then takes values of
its kind only, a null leaves it unset, and a key that names no setting is refused. Keys may be
written with underscores or in camel case.
-/
namespace CodeAudit
namespace Settings

/-- A scalar with its kind. -/
inductive Scalar where
  | truth (value : Bool)
  | number (value : Numeral)
  | text (value : Text)
deriving DecidableEq, Repr

def Scalar.ofText (t : Text) : Scalar :=
  if t = utf8 "true" then .truth true
  else if t = utf8 "false" then .truth false
  else
    match Numeral.ofText? t with
    | some value => .number value
    | none => .text t

mutual

/-- No scalar of the document is an infinity or not-a-number. -/
def isEncodable : Document → Bool
  | .null => true
  | .scalar t =>
      match Scalar.ofText t with
      | .number value => value.isFinite
      | _ => true
  | .sequence items => areEncodable items
  | .mapping fields => haveEncodable fields

def areEncodable : List Document → Bool
  | [] => true
  | d :: rest => isEncodable d && areEncodable rest

def haveEncodable : List (Text × Document) → Bool
  | [] => true
  | (_, d) :: rest => isEncodable d && haveEncodable rest

end

/-! Values of single settings; nothing for a value of another kind. -/

def text? (d : Document) : Option Text := do
  match Scalar.ofText (← d.scalar?) with
  | .text value => some value
  | _ => none

def truth? (d : Document) : Option Bool := do
  match Scalar.ofText (← d.scalar?) with
  | .truth value => some value
  | _ => none

/-- A number without a fraction between two bounds. -/
def integer? (low high : Int) (d : Document) : Option Int := do
  match Scalar.ofText (← d.scalar?) with
  | .number value =>
      let n ← value.integer?
      if low ≤ n ∧ n ≤ high then some n else none
  | _ => none

def count? (d : Document) : Option UInt32 :=
  (integer? 0 (UInt32.size - 1 : Nat) d).map (fun n => n.toNat.toUInt32)

/-- One of the named modes, or any signed number of 32 bits. -/
def mode? (names : List String) (d : Document) : Option Int32 :=
  match text? d with
  | some name => (names.findIdx? (fun n => utf8 n = name)).map (fun i => Int32.ofNat i)
  | none => (integer? Int32.minValue.toInt Int32.maxValue.toInt d).map Int32.ofInt

/-- The nanoseconds that the digits after the point of a number of seconds stand for. -/
def fractionNanos? (digits : Text) : Option Nat := do
  let n ← Document.ofDigits? 10 digits
  if digits.length ≤ 9 then some (n * Nat.pow 10 (9 - digits.length)) else none

def maxDurationSeconds : Nat := 315576000000

/-- A number of seconds such as `1.5s`, with up to nine digits after the point. -/
def duration? (d : Document) : Option Duration := do
  let t ← text? d
  let negative := t.head? = some 45
  let body := if negative then t.tail else t
  if body.getLast? ≠ some 115 then none
  else
    let body := body.dropLast
    let seconds ← Document.ofDigits? 10 (body.takeWhile isDigitByte)
    let nanos ←
      match body.dropWhile isDigitByte with
      | [] => some 0
      | 46 :: digits => fractionNanos? digits
      | _ => none
    if maxDurationSeconds < seconds then none
    else
      let signed (n : Nat) : Int := if negative then -(n : Int) else n
      some { seconds := Int64.ofInt (signed seconds), nanos := Int32.ofInt (signed nanos) }

/-- A key in either spelling. -/
def isKey (name : Text) (underscored camel : String) : Bool :=
  name = utf8 underscored || name = utf8 camel

/-- Applies the fields of a mapping one after the other. A null leaves everything as it is, but its
key has to be known. -/
def readFields {α : Type} (field? : Text → Option (Document → α → Option α)) (d : Document)
    (start : α) : Option α :=
  match d with
  | .mapping fields =>
      fields.foldlM
        (fun acc (key, value) => do
          let set ← field? key
          if value.isNull then some acc else set value acc)
        start
  | _ => none

def loggingField? (key : Text) : Option (Document → Logging → Option Logging) :=
  if isKey key "level" "level" then
    some fun d s => (text? d).map (fun level => { s with level })
  else if isKey key "pattern" "pattern" then
    some fun d s => (text? d).map (fun pattern => { s with pattern })
  else if isKey key "include_trace_context" "includeTraceContext" then
    some fun d s => (truth? d).map (fun includeTraceContext => { s with includeTraceContext })
  else none

def sqliteField? (key : Text) : Option (Document → Text × Bool → Option (Text × Bool)) :=
  if isKey key "path" "path" then some fun d s => (text? d).map (fun path => (path, s.2))
  else if isKey key "wal_mode" "walMode" then some fun d s => (truth? d).map (fun wal => (s.1, wal))
  else none

/-- Only one backend may be given. -/
def databaseField? (key : Text) :
    Option (Document → Option Database → Option (Option Database)) :=
  if isKey key "memory" "memory" then
    some fun d s =>
      match s with
      | some _ => none
      | none => (readFields (fun _ => none) d ()).map (fun () => some .memory)
  else if isKey key "sqlite" "sqlite" then
    some fun d s =>
      match s with
      | some _ => none
      | none => (readFields sqliteField? d ([], false)).map
          (fun (path, wal) => some (.sqlite path wal))
  else none

def graphModeNames : List String :=
  ["CALL_GRAPH_MODE_UNSPECIFIED", "CALL_GRAPH_MODE_LEXICAL", "CALL_GRAPH_MODE_DISABLED"]

def analysisField? (key : Text) : Option (Document → Analysis → Option Analysis) :=
  if isKey key "max_call_tree_depth" "maxCallTreeDepth" then
    some fun d s => (count? d).map (fun maxTreeDepth => { s with maxTreeDepth })
  else if isKey key "max_tree_nodes" "maxTreeNodes" then
    some fun d s => (count? d).map (fun maxTreeNodes => { s with maxTreeNodes })
  else if isKey key "call_graph_mode" "callGraphMode" then
    some fun d s => (mode? graphModeNames d).map (fun graphMode => { s with graphMode })
  else none

def schedulerField? (key : Text) : Option (Document → Scheduling → Option Scheduling) :=
  if isKey key "workers" "workers" then
    some fun d s => (count? d).map (fun workers => { s with workers })
  else if isKey key "task_timeout" "taskTimeout" then
    some fun d s => (duration? d).map (fun timeout => { s with taskTimeout := some timeout })
  else if isKey key "summarize_group_results" "summarizeGroupResults" then
    some fun d s => (truth? d).map (fun summarizeGroupResults => { s with summarizeGroupResults })
  else none

def transportNames : List String :=
  ["OTLP_TRANSPORT_UNSPECIFIED", "OTLP_TRANSPORT_GRPC", "OTLP_TRANSPORT_HTTP"]

def observabilityField? (key : Text) : Option (Document → Observability → Option Observability) :=
  if isKey key "tracing_enabled" "tracingEnabled" then
    some fun d s => (truth? d).map (fun tracingEnabled => { s with tracingEnabled })
  else if isKey key "otlp_endpoint" "otlpEndpoint" then
    some fun d s => (text? d).map (fun endpoint => { s with endpoint })
  else if isKey key "transport" "transport" then
    some fun d s => (mode? transportNames d).map (fun transport => { s with transport })
  else none

def rootField? (key : Text) : Option (Document → Settings → Option Settings) :=
  if isKey key "project_id" "projectId" then
    some fun d s => (text? d).map (fun projectId => { s with projectId })
  else if isKey key "logging" "logging" then
    some fun d s => (readFields loggingField? d s.logging).map (fun logging => { s with logging })
  else if isKey key "database" "database" then
    some fun d s => (readFields databaseField? d s.database).map
      (fun database => { s with database })
  else if isKey key "analysis" "analysis" then
    some fun d s => (readFields analysisField? d s.analysis).map
      (fun analysis => { s with analysis })
  else if isKey key "scheduler" "scheduler" then
    some fun d s =>
      (readFields schedulerField? d s.scheduler).map (fun scheduler => { s with scheduler })
  else if isKey key "observability" "observability" then
    some fun d s =>
      (readFields observabilityField? d s.observability).map (fun observability =>
        { s with observability })
  else none

/-- The settings a document gives, without defaults. -/
def ofDocument? (d : Document) : Option Settings := readFields rootField? d {}

/-- Reads settings, fills in the defaults and refuses what no run can work with. -/
def load (file : DocumentFile) : Except Fault Settings :=
  match file with
  | .missing | .broken => .error (.settings .unreadable)
  | .parsed d =>
      if !isEncodable d then .error (.settings .notEncodable)
      else
        match ofDocument? d with
        | none => .error (.settings .malformed)
        | some settings => do
            let settings := settings.withDefaults
            settings.validate
            return settings

end Settings
end CodeAudit
