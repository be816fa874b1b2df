import CodeAudit.Store.Relation.Cell
import CodeAudit.Task
import CodeAudit.Text.Unicode

/-!
How tasks get into rows and out of them. A statement names its columns in some order, and both what
is bound to its parameters and what is read of its results goes by places in that order, not by
names.
-/
namespace CodeAudit
namespace Task

/-- The columns that a query names. -/
def readColumns : List String :=
  ["id", "uuid", "project_id", "name", "content", "rule", "rule_key", "result", "contract_code",
   "start_line", "end_line", "relative_file_path", "absolute_file_path", "recommendation",
   "business_flow_code", "if_business_flow_scan", "group_id", "scan_record", "short_result",
   "created_at_ms"]

/-- The columns that an insertion without an id names. -/
def insertColumns : List String :=
  ["uuid", "project_id", "name", "content", "rule", "rule_key", "result", "contract_code",
   "start_line", "end_line", "relative_file_path", "absolute_file_path", "recommendation",
   "business_flow_code", "if_business_flow_scan", "group_id", "scan_record", "short_result",
   "created_at_ms"]

/-- The columns that an insertion with an id names. -/
def insertColumnsWithId : List String :=
  ["id", "uuid", "project_id", "name", "content", "rule", "rule_key", "result", "contract_code",
   "start_line", "end_line", "relative_file_path", "absolute_file_path", "recommendation",
   "business_flow_code", "if_business_flow_scan", "group_id", "scan_record", "short_result",
   "created_at_ms"]

/-- The name of a column that is written to. -/
def Column.title : Column → String
  | .result => "result"
  | .shortResult => "short_result"
  | .scanRecord => "scan_record"

/-- A text as it is bound, up to its first NUL. -/
def textCell (encoding : TextEncoding) (text : Text) : Cell := .text (encoding.keep text)

/-- What is bound to the parameters of an insertion, one after the other. -/
def bound (encoding : TextEncoding) (t : Task) : List Cell :=
  let text := textCell encoding
  [text t.uuid, text t.projectId, text t.name, text t.content, text t.rule, text t.ruleKey,
   text t.result, text t.contractCode, text t.startLine, text t.endLine, text t.relativePath,
   text t.absolutePath, text t.recommendation, text t.flowCode,
   .integer (if t.flowScan then 1 else 0), (t.groupId.map text).getD .null, text t.scanRecord,
   text t.shortResult, .integer t.createdAt.toInt64]

/-- What is bound where the id comes first. -/
def boundWithId (encoding : TextEncoding) (t : Task) : List Cell :=
  .integer t.id.toInt64 :: t.bound encoding

/-- The task that the results of a query are read as, by their places. Whatever is found where a
text is expected is read as one, up to a NUL. -/
def ofCells (encoding : TextEncoding) (cells : List Cell) : Task :=
  let cell (place : Nat) : Cell := cells.getD place .null
  let shown (cell : Cell) : Text :=
    match cell with
    | .blob bytes => (encoding.decode bytes).beforeNul
    | cell => cell.shown.beforeNul
  let text (place : Nat) : Text := shown (cell place)
  let number (place : Nat) : Int64 := (cell place).number
  { id := (number 0).toUInt64
    uuid := text 1
    projectId := text 2
    name := text 3
    content := text 4
    rule := text 5
    ruleKey := text 6
    result := text 7
    contractCode := text 8
    startLine := text 9
    endLine := text 10
    relativePath := text 11
    absolutePath := text 12
    recommendation := text 13
    flowCode := text 14
    flowScan := (number 15).toInt32 != 0
    groupId := if (cell 16).isNull then none else some (text 16)
    scanRecord := text 17
    shortResult := text 18
    createdAt := (number 19).toUInt64 }

end Task
end CodeAudit
