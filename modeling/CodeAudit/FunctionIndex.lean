import CodeAudit.Fault
import CodeAudit.FunctionRecord

/-! Records by short name. Of several records with one short name the last is found. -/
namespace CodeAudit

/-- A record and its place in the list it was read from. -/
structure PlacedRecord where
  place : Nat
  record : FunctionRecord
deriving DecidableEq, Repr

structure FunctionIndex where
  records : List FunctionRecord
deriving DecidableEq, Repr

namespace FunctionIndex

/-- Refuses a list with a hole. -/
def ofList (records : List (Option FunctionRecord)) : Except Fault FunctionIndex :=
  match records.mapM id with
  | some all => .ok ⟨all⟩
  | none => .error .missingRecord

def size (index : FunctionIndex) : Nat := index.records.length

def placed (index : FunctionIndex) : List PlacedRecord :=
  index.records.zipIdx.map (fun (r, i) => ⟨i, r⟩)

def find? (index : FunctionIndex) (name : Text) : Option PlacedRecord :=
  index.placed.reverse.find? (fun p => p.record.shortName = name)

end FunctionIndex
end CodeAudit
