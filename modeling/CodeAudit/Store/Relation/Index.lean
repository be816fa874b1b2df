import CodeAudit.Store.Relation.View

/-!
Indexes, and what of a table cannot be reached. A file may hold pages that belong to no tree, and
indexes that do not fit their tables. Nobody minds before something comes across them, so a table is
kept with its faults.
-/
namespace CodeAudit

/-- A stretch of numbers whose rows cannot be read: those above one number and not above another
one. -/
structure Gap where
  above : Option Int64 := none
  upTo : Option Int64 := none
deriving DecidableEq, Repr

def Gap.holds (gap : Gap) (number : Int64) : Bool :=
  gap.above.all (· < number) && gap.upTo.all (number ≤ ·)

/-- A list of the numbers of rows in the order of what they hold. -/
structure Index where
  name : Text
  parts : List (Expr × Collation)
  /-- Only rows that meet it are listed. -/
  condition : Option Expr := none
  isUnique : Bool := false
  /-- The list cannot be read. -/
  isLost : Bool := false
  /-- Nothing can be added to the list. -/
  isClosed : Bool := false
  /-- The numbers of rows that are not listed but should be. -/
  missing : List Int64 := []
  /-- What is listed without a row that holds it. -/
  strays : List (List Cell × Int64) := []
deriving DecidableEq

namespace Index

def isSound (index : Index) : Bool :=
  !index.isLost && !index.isClosed && index.missing.isEmpty && index.strays.isEmpty

def partColumns? (index : Index) : Option (List Text) :=
  index.parts.mapM (fun (part, _) => part.column?)

end Index
end CodeAudit
