import CodeAudit.Store.Relation.Grammar

/-!
Reading the steps of a trigger. They are about tables of the same database, and answer nothing.
-/
namespace CodeAudit
namespace Step

open Reader

/-- How a step resolves conflicts, if it tells. -/
def resolutionAt (tokens : List Token) : Option Resolution × List Token :=
  match (Token.after? ["or"] tokens).bind Grammar.resolution? with
  | some (resolution, rest) => (some resolution, rest)
  | none => (none, tokens)

/-- The table that a step is about, without a database. -/
def targetAt : Reader Text := fun tokens => do
  let (table, rest) ← Grammar.tableAt tokens
  check (if table.database.isSome then some .qualifiedStep else none) table.name rest

/-- The table whose rows a step looks for, without an index. -/
def searchedAt : Reader Text := fun tokens => do
  let (table, rest) ← targetAt tokens
  match Token.after? ["indexed", "by"] rest, Token.after? ["not", "indexed"] rest with
  | some rest, _ => refuse (.indexedStep false) (rest.drop 1)
  | none, some rest => refuse (.indexedStep true) rest
  | none, none => return (table, rest)

/-- The number of values that stand side by side. -/
def width : Expr → Nat
  | .row items => items.toList.length
  | _ => 1

/-- Values that do not fit the columns that are to get them together. -/
def assignmentFault? (names : List Text) : Expr → Option DeclarationFault
  | .first _ => none
  | e => if names.length < 2 ∨ names.length = width e then none
      else some (.engine (.assigned names.length (width e)))

/-- A value for a column, or one for several between brackets. -/
def valueAt : Reader (List Text × Expr) := fun tokens => do
  let (names, rest) :=
    match Token.bracketed? tokens with
    | some _ => Grammar.namesAt tokens
    | none => ((tokens.head?.bind Token.name?).toList, tokens.drop 1)
  let (e, rest) ← Grammar.read (← mark "=" rest)
  check (assignmentFault? names e) (names, e) rest

def valuesAt : Reader (List (List Text × Expr)) := separated valueAt

def conditionAt : Reader Expr := fun tokens => do
  let (condition, rest) ← behind ["where"] Grammar.read .always tokens
  return (condition.asked, rest)

/-- A part of a rule about columns, with its collation if that is told. A text stands for a
column. -/
def partOf (e : Expr) : Expr × Option Collation :=
  let column (e : Expr) : Expr :=
    match e with
    | .name none name _ | .value (.text name) => .column name
    | e => e
  match e with
  | .collate e collation => (column e, some collation)
  | e => (column e, none)

/-- The rule that a row breaks, and the condition that belongs to it. -/
def targetRuleAt : Reader (List (Expr × Option Collation) × Option Expr) := fun tokens =>
  if !tokens.head?.any (Token.isMark "(") then .ok (([], none), tokens)
  else do
    let (keys, rest) ← bracketed Grammar.keys tokens
    let parts := keys.map (fun (e, _) => partOf e)
    match Token.after? ["where"] rest with
    | some rest => do
        let (only, rest) ← Grammar.read rest
        return ((parts, some only), rest)
    | none => return ((parts, none), rest)

/-- What is done instead of adding a row. Every round takes tokens, so their number bounds the
rounds. -/
def amendmentsWithin : Nat → Reader (List Amendment)
  | 0, _ => nothing
  | rounds + 1, tokens =>
      match Token.after? ["on", "conflict"] tokens with
      | none => .ok ([], tokens)
      | some rest => do
          let ((parts, only), rest) ← targetRuleAt rest
          let rest ← words ["do"] rest
          let (amendment, rest) : Amendment × List Token ←
            match Token.after? ["nothing"] rest with
            | some rest => pure ({ parts, only }, rest)
            | none => do
                let (values, rest) ← valuesAt (← words ["update", "set"] rest)
                let (condition, rest) ← conditionAt rest
                pure ({ parts, only, values := some values, condition }, rest)
          let (others, rest) ← amendmentsWithin rounds rest
          return (amendment :: others, rest)

def silentAt : Reader Unit := fun tokens =>
  match Token.after? ["returning"] tokens with
  | none => .ok ((), tokens)
  | some rest => do
      let (_, rest) ← separated (Grammar.resultAt (Grammar.fuelFor rest)) rest
      refuse .returningStep rest

def insertAt (resolution : Option Resolution) : Reader Step := fun tokens => do
  let (table, rest) ← targetAt (← words ["into"] tokens)
  let (columns, rest) := Grammar.namesAt rest
  let (rows, rest) ← Grammar.query rest
  let (amendments, rest) ← amendmentsWithin (rest.length + 1) rest
  let ((), rest) ← silentAt rest
  return (.insert resolution table columns rows amendments, rest)

def changeAt : Reader Step := fun tokens => do
  let (resolution, rest) := resolutionAt tokens
  let (table, rest) ← searchedAt rest
  let (values, rest) ← valuesAt (← words ["set"] rest)
  let (sources, rest) ←
    behind ["from"] (fun rest => Grammar.sourcesAt (Grammar.fuelFor rest) true {} rest) .nil rest
  let (condition, rest) ← conditionAt rest
  return (.change resolution table values sources condition, rest)

def dropAt : Reader Step := fun tokens => do
  let (table, rest) ← searchedAt (← words ["from"] tokens)
  let (condition, rest) ← conditionAt rest
  return (.drop table condition, rest)

def read : Reader Step
  | [] => nothing
  | token :: rest =>
      if token.isWord "insert" then
        let (resolution, rest) := resolutionAt rest
        insertAt resolution rest
      else if token.isWord "replace" then insertAt (some .replace) rest
      else if token.isWord "update" then changeAt rest
      else if token.isWord "delete" then dropAt rest
      else do
        let (query, rest) ← Grammar.query (token :: rest)
        return (.look query, rest)

/-- Steps with a semicolon after each, up to the end. Every round takes a token, so their number
bounds the rounds. -/
def readWithin : Nat → List Token → Outcome (List Step)
  | 0, _ => nothing
  | rounds + 1, tokens =>
      if tokens.isEmpty || Token.startsWith "end" tokens then .ok []
      else do
        let (step, rest) ← read tokens
        return step :: (← readWithin rounds (← mark ";" rest))

def readAll (tokens : List Token) : Outcome (List Step) := readWithin (tokens.length + 1) tokens

end Step
end CodeAudit
