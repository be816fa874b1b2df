import CodeAudit.Text

/-! Source functions as an extractor delivers them, and the short names that identify them. -/
namespace CodeAudit

/-- The last dot-separated part of a qualified name. -/
def shortName (qualified : Text) : Text := qualified.afterLast 46

structure FunctionRecord where
  /-- Qualified, such as `Vault.withdraw`. -/
  name : Text
  content : Text
  relativePath : Text := []
  absolutePath : Text := []
  startLine : UInt32 := 0
  endLine : UInt32 := 0
  /-- The enclosing file, when the extractor provides it. -/
  contractCode : Option Text := none
  modifiers : List Text := []
  visibility : Option Text := none
  stateMutability : Option Text := none
deriving DecidableEq, Repr

def FunctionRecord.shortName (r : FunctionRecord) : Text := CodeAudit.shortName r.name

end CodeAudit
