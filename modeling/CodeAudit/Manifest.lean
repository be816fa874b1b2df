import CodeAudit.Document
import CodeAudit.Fault
import CodeAudit.FunctionRecord
import CodeAudit.Log

/-!
Manifests: documents that list extracted functions, either at the root or under the key `functions`
of a root mapping. A name and a content are required; a manifest with one bad entry is refused as a
whole.
-/
namespace CodeAudit
namespace Manifest

def requiredText (entry : Document) (key : String) (position : Nat) : Except ManifestFault Text :=
  match (entry.field? key).bind Document.scalar? with
  | some text => .ok text
  | none => .error (.entryLacks position key)

/-- Null counts as absent. -/
def optionalText (entry : Document) (key : String) (position : Nat) :
    Except ManifestFault (Option Text) :=
  match entry.field? key with
  | none | some .null => .ok none
  | some (.scalar text) => .ok (some text)
  | some _ => .error (.entryValue position)

/-- Zero when absent; null is no line number. -/
def lineNumber (entry : Document) (key : String) (position : Nat) : Except ManifestFault UInt32 :=
  match entry.field? key with
  | none => .ok 0
  | some value =>
      match value.uint32? with
      | some line => .ok line
      | none => .error (.entryValue position)

def modifierTexts (entry : Document) (position : Nat) : Except ManifestFault (List Text) :=
  match entry.field? "modifiers" with
  | none => .ok []
  | some (.sequence items) =>
      match items.mapM Document.scalar? with
      | some texts => .ok texts
      | none => .error (.entryValue position)
  | some _ => .error (.entryModifiers position)

def record (entry : Document) (position : Nat) : Except ManifestFault FunctionRecord :=
  match entry with
  | .mapping _ => do
      let name ← requiredText entry "name" position
      let content ← requiredText entry "content" position
      let relativePath ← optionalText entry "relative_file_path" position
      let absolutePath ← optionalText entry "absolute_file_path" position
      let startLine ← lineNumber entry "start_line" position
      let endLine ← lineNumber entry "end_line" position
      let contractCode ← optionalText entry "contract_code" position
      let visibility ← optionalText entry "visibility" position
      let stateMutability ← optionalText entry "state_mutability" position
      let modifiers ← modifierTexts entry position
      return {
        name, content, startLine, endLine, contractCode, visibility, stateMutability, modifiers
        relativePath := relativePath.getD []
        absolutePath := absolutePath.getD [] }
  | _ => .error (.entryNotAMap position)

/-- The list of functions: the value of `functions` if the root is a mapping with that key, else the
root. -/
def entries (root : Document) : Document := (root.field? "functions").getD root

/-- The records of a manifest in order. -/
def ofDocument (root : Document) : Except ManifestFault (List FunctionRecord) :=
  match entries root with
  | .null => .ok []
  | .sequence items => items.zipIdx.mapM (fun (entry, position) => record entry position)
  | _ => .error .notAList

/-- Reads a manifest given as text. -/
def ofText (source : DocumentFile) : Except Fault (List FunctionRecord) :=
  match source with
  | .parsed root => (ofDocument root).mapError Fault.manifest
  | .missing | .broken => .error (.manifest .unreadableText)

/-- Reads the manifest in a file. -/
def load (path : Text) (file : DocumentFile) :
    Except Fault (List FunctionRecord) × List Log.Line :=
  match file with
  | .parsed root =>
      match ofDocument root with
      | .ok records =>
          (.ok records,
           [Log.info "Function manifest loaded"
             [.text "path" path, .nat "functions" records.length]])
      | .error cause => (.error (.manifest cause), [])
  | .missing | .broken => (.error (.manifest .unreadableFile), [])

end Manifest
end CodeAudit
