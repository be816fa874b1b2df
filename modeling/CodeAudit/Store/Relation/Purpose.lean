/-!
What expressions in declarations are for. Their values are kept or decide what is kept, so they must
not change.
-/
namespace CodeAudit

/-- What an expression in a declaration is for. -/
inductive Purpose where
  | check | computation | indexing
  /-- Which rows an index is about. -/
  | choice
deriving DecidableEq, Repr

namespace Purpose

def title : Purpose → String
  | check => "CHECK constraints"
  | computation => "generated columns"
  | indexing => "index expressions"
  | choice => "partial index WHERE clauses"

def place : Purpose → String
  | check => "a CHECK constraint"
  | computation => "a generated column"
  | indexing | choice => "an index"

/-- Names stand for columns only, without the name of the table. -/
def isPlain (purpose : Purpose) : Bool := purpose == .computation || purpose == .indexing

end Purpose
end CodeAudit
