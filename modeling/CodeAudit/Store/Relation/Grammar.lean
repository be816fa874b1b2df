import CodeAudit.Store.Relation.Phrase
import CodeAudit.Store.Relation.View
import CodeAudit.Store.Relation.Window

/-!
Reading expressions and queries from tokens. Operators bind in ten degrees, and those of one degree
from left to right; `not` stands in the third one. Reading ends with the first thing that is wrong
by itself.
-/
namespace CodeAudit

/-- What is read, or why nothing is: something is wrong, or what is expected is not there. -/
abbrev Reader.Outcome (α : Type) := Except (Option DeclarationFault) α

abbrev Reader (α : Type) := List Token → Reader.Outcome (α × List Token)

namespace Reader

def nothing {α : Type} : Outcome α := .error none

/-- Refuses what has been read, as far as something follows it. -/
def refuse {α : Type} (fault : DeclarationFault) (rest : List Token) : Outcome α :=
  .error (if rest.isEmpty then none else some fault)

/-- What has been read, unless there is something wrong with it. -/
def check {α : Type} (fault : Option DeclarationFault) (value : α) : Reader α := fun rest =>
  match fault with
  | some fault => refuse fault rest
  | none => .ok (value, rest)

def mark (spelling : String) (tokens : List Token) : Outcome (List Token) :=
  match Token.afterMark? spelling tokens with
  | some rest => .ok rest
  | none => nothing

def words (keywords : List String) (tokens : List Token) : Outcome (List Token) :=
  match Token.after? keywords tokens with
  | some rest => .ok rest
  | none => nothing

def name : Reader Text
  | token :: rest =>
      match token.name? with
      | some name => .ok (name, rest)
      | none => nothing
  | [] => nothing

/-- What stands behind some keywords, or what is taken if they are not there. -/
def behind {α : Type} (keywords : List String) (read : Reader α) (absent : α) : Reader α :=
  fun tokens =>
  match Token.after? keywords tokens with
  | some rest => read rest
  | none => .ok (absent, tokens)

def bracketed {α : Type} (read : Reader α) : Reader α := fun tokens => do
  let (value, rest) ← read (← mark "(" tokens)
  return (value, ← mark ")" rest)

/-- What stands between commas. Every round takes a token, so their number bounds the rounds. -/
def separatedWithin {α : Type} (read : Reader α) : Nat → Reader (List α)
  | 0, _ => nothing
  | rounds + 1, tokens => do
      let (first, rest) ← read tokens
      match Token.afterMark? "," rest with
      | some rest => do
          let (others, rest) ← separatedWithin read rounds rest
          return (first :: others, rest)
      | none => return ([first], rest)

def separated {α : Type} (read : Reader α) : Reader (List α) := fun tokens =>
  separatedWithin read (tokens.length + 1) tokens

end Reader

namespace Grammar

open Reader

/-- The operators of two operands, from those that bind least. Those of the fourth degree that are
words are read apart. -/
def operators : List (List (String × Binary)) :=
  [[("or", .or)], [("and", .and)], [],
   [("=", .compare .equal), ("==", .compare .equal), ("<>", .compare .unequal),
     ("!=", .compare .unequal)],
   [("<", .compare .less), ("<=", .compare .atMost), (">", .compare .more),
     (">=", .compare .atLeast)],
   [("&", .bitAnd), ("|", .bitOr), ("<<", .shiftLeft), (">>", .shiftRight)],
   [("+", .calculate .plus), ("-", .calculate .minus)],
   [("*", .calculate .times), ("/", .calculate .over), ("%", .calculate .modulo)],
   [("||", .joined)]]

def operatorAt (degree : Nat) : List Token → Option (Binary × List Token)
  | token :: rest =>
      ((operators.getD degree []).find? (fun (spelling, _) => token.isMark spelling ||
        token.isWord spelling)).map
        (fun (_, operator) => (operator, rest))
  | [] => none

def ofNumber (t : Text) : Expr :=
  let digits := Text.lower (t.drop (Numeral.signLength t))
  if (utf8 "0x").isPrefixOf digits then
    let value := Int64.ofNat ((Document.ofDigits? 16 (digits.drop 2)).getD 0)
    .value (.integer (if t.head? = some 45 then -value else value))
  else .value (Cell.numeric (.text t))

def startsQuery (tokens : List Token) : Bool :=
  tokens.head?.any (Token.isOneOf ["select", "values", "with"])

def ofWord? (token : Token) : Option Expr :=
  if token.isWord "null" then some (.value .null)
  else if token.isWord "true" then some (.truth true)
  else if token.isWord "false" then some (.truth false)
  else if token.isOneOf ["current_time", "current_date", "current_timestamp"] then
    some (.call token.text false .nil .always)
  else none

def resolution? : List Token → Option (Resolution × List Token)
  | token :: rest =>
      ([("abort", .abort), ("fail", .stop), ("rollback", .rollback), ("ignore", .skip),
        ("replace", .replace)].find?
        (fun ((word : String), _) => token.isWord word)).map
          (fun (_, resolution) => (resolution, rest))
  | [] => none

def mostOperands : Nat := 127

/-- What the word before a bracket and the operands after it make. -/
def ofCall (function : Text) (distinct : Bool) (arguments : List Expr) (filter : Expr) : Expr :=
  match arguments with
  | [condition, yes, no] =>
      if function.lower = utf8 "iif" && filter = .always then .choose condition.asked yes no
      else .call function distinct (.ofList arguments) filter
  | _ => .call function distinct (.ofList arguments) filter

/-- A comparison. What is like the word for what counts as true counts as true. -/
def compared (comparison : Comparison) (left right : Expr) : Expr :=
  match comparison, right with
  | .alike, .truth expected | .alike, .collate (.truth expected) _ => .unary (.isTrue expected) left
  | .unlike, .truth expected | .unlike, .collate (.truth expected) _ =>
      .not (.unary (.isTrue expected) left)
  | _, _ => .binary (.compare comparison) left right

/-- The values of a list that stand side by side. -/
def valuesOf (count : Nat) : Expr → Except DeclarationFault Query
  | .row values =>
      let found := values.toList.length
      if found = count then .ok (.ofValues values) else .error (.listedRow found count)
  | _ => .error (.listedRow 1 count)

def ofMembers (left : Expr) (items : List Expr) : Except DeclarationFault Expr :=
  match left, items with
  | _, [.first query] => .ok (.amongRows left query)
  | .row values, item :: items => do
      let first ← valuesOf values.toList.length item
      return .amongRows left (← items.foldlM (fun query item => do
        return .ofBoth .unionAll query (← valuesOf values.toList.length item)) first)
  | _, [item] =>
      .ok (if item.isFixed then .binary (.compare .equal) left (.unary .same item)
        else .among left (.ofList items))
  | _, _ => .ok (.among left (.ofList items))

/-- The type in a cast, up to the closing bracket, as what it asks for. -/
def affinityOfType (type : Text) : Affinity :=
  let mentions (part : String) : Bool := (utf8 part).occursIn type.lower
  if type.isEmpty then .blob
  else if mentions "int" then .integer
  else if mentions "char" || mentions "clob" || mentions "text" then .text
  else if mentions "blob" then .blob
  else if mentions "real" || mentions "floa" || mentions "doub" then .real
  else .numeric

/-- The name of a table, behind that of the database if that is told. -/
def tableAt : Reader TableName := fun tokens => do
  let (first, rest) ← name tokens
  match Token.afterMark? "." rest with
  | some rest => do
      let (second, rest) ← name rest
      return ({ name := second, database := some first }, rest)
  | none => return ({ name := first }, rest)

/-- Another name that is told, with or without a word before it. -/
def aliasAt : List Token → Option Text × List Token
  | tokens =>
      match Token.after? ["as"] tokens with
      | some rest => (rest.head?.bind Token.name?, rest.drop 1)
      | none =>
          match tokens with
          | token :: rest =>
              if token.isOneOf Phrase.reserved then (none, tokens)
              else if [Token.Kind.word, .name, .quoted, .literal].contains token.kind then
                (some token.text, rest)
              else (none, tokens)
          | [] => (none, [])

def indexAt (tokens : List Token) : Option Text × List Token :=
  match Token.after? ["indexed", "by"] tokens, Token.after? ["not", "indexed"] tokens with
  | some rest, _ => (rest.head?.bind Token.name?, rest.drop 1)
  | none, some rest => (none, rest)
  | none, none => (none, tokens)

def joinKinds : List String := ["natural", "left", "outer", "right", "full", "inner", "cross"]

/-- The join that some words tell, if they can stand together. -/
def joinOf? (kinds : List Token) : Option Join :=
  let told := kinds.map Token.raw
  let has (kind : String) : Bool := told.any (fun word => word.lower == utf8 kind)
  let isOuter := ["left", "right", "full", "outer"].any has
  let isInner := has "inner" || has "cross"
  let isSided := ["left", "right", "full"].any has
  if told.any (fun word => !joinKinds.any (fun kind => utf8 kind == word.lower)) then none
  else if isOuter && (isInner || !isSided) then none
  else
    some { keepsLeft := has "left" || has "full", keepsRight := has "right" || has "full",
           natural := has "natural" }

/-- The words between two tables, if there is another one. -/
def joinAt (tokens : List Token) : Outcome (Option Join × List Token) :=
  match tokens with
  | [] => .ok (none, [])
  | token :: rest =>
      if token.isMark "," || token.isWord "join" then .ok (some {}, rest)
      else if !token.isOneOf Phrase.joinWords then .ok (none, tokens)
      else
        let kinds := tokens.takeWhile (fun token => !token.isWord "join")
        let rest := tokens.drop (kinds.length + 1)
        match joinOf? kinds with
        | some join => .ok (some join, rest)
        | none => refuse (.unknownJoin (kinds.map Token.raw)) rest

def namesAt (tokens : List Token) : List Text × List Token :=
  match Token.bracketed? tokens with
  | some (items, rest) => (items.filterMap (fun item => item.head?.bind Token.name?), rest)
  | none => ([], tokens)

/-- What stands behind the words for a join: a condition, or the names of shared columns. The first
source has none. -/
def partnersAt (isFirst : Bool) (read : Reader Expr) (join : Join) : Reader (Join × Expr) :=
  fun tokens =>
  match Token.after? ["on"] tokens, Token.after? ["using"] tokens with
  | some rest, _ => do
      let (on, rest) ← read rest
      check (if isFirst then some (.joinMissing "ON") else none) (join, on.asked) rest
  | none, some rest =>
      let (shared, rest) := namesAt rest
      check (if isFirst then some (.joinMissing "USING") else none)
        ({ join with shared }, Expr.always) rest
  | none, none => .ok ((join, .always), tokens)

def ofRows : List (List Expr) → Query
  | [] => .ofValues .nil
  | row :: rest =>
      rest.foldl (fun query row => .ofBoth .unionAll query (.ofValues (.ofList row)))
        (.ofValues (.ofList row))

/-- A query that another one is put together with. Several rows of values are a query by
themselves. -/
def ofPartner : Query → Query
  | query@(.combine _ _ _ _ _ _ _) => .ofSources (.cons (.query query {}) [] {} .always .nil)
  | query => query

def clauseOf? : Query → Option String
  | .select _ _ _ _ _ _ sort _ limit _ =>
      if !sort.isEmpty then some "ORDER BY" else if limit != .noLimit then some "LIMIT" else none
  | _ => none

/-- Puts a query behind another one, which then answers in the order of the last one. -/
def followed (query : Query) (combination : Combination) : Query → Query
  | .select selection results sources condition groups having sort orders limit offset =>
      .combine combination query
        (.select selection results sources condition groups having .nil [] .noLimit .noOffset) sort
          orders limit offset
  | other => .ofBoth combination query (ofPartner other)

/-- Puts queries together. What is told of all results is told behind the last query. -/
def combined (first : Query) (others : List (Combination × Query)) :
    Except DeclarationFault Query :=
  let early := ((first :: others.map Prod.snd).zip (others.map Prod.fst)).reverse.findSome?
    (fun (query, combination) =>
    (clauseOf? query).map (fun clause => DeclarationFault.early clause combination.spelling))
  match early with
  | some fault => .error fault
  | none =>
      .ok (others.foldl (fun query (combination, other) => followed query combination other) first)

def parameterFault? (token : Token) : Option DeclarationFault :=
  match token.raw with
  | 63 :: digit :: digits =>
      let number := (Document.ofDigits? 10 (digit :: digits)).getD 0
      if 1 ≤ number ∧ number ≤ 250000 then none else some .parameterNumber
  | _ => none

/-- The type in a cast, up to the closing bracket. -/
def typeAt : Reader Text := fun tokens =>
  match Token.listFrom 0 [] tokens with
  | some ([type], rest) => .ok (Text.join (utf8 " ") (type.map Token.text), rest.drop 1)
  | _ => nothing

/-- How a row is refused, and what is said about that. -/
def refusalAt : Reader Expr := fun tokens =>
  match resolution? tokens with
  | none => nothing
  | some (.skip, rest) => .ok (.raise .skip [], rest)
  | some (resolution, rest) => do
      let (message, rest) ← name (← mark "," rest)
      return (.raise resolution message, rest)

/-- A column, perhaps behind the name of its table and that of the database. -/
def columnAt (token : Token) (rest : List Token) : Outcome (Expr × List Token) :=
  match Token.afterMark? "." rest with
  | none => .ok (.name none token.text (token.kind == .quoted), rest)
  | some rest => do
      let (second, rest) ← name rest
      match Token.afterMark? "." rest with
      | none => return (.name (some { name := token.text }) second false, rest)
      | some rest => do
          let (third, rest) ← name rest
          return (.name (some { name := second, database := some token.text }) third false, rest)

/-- All columns, perhaps of one table. -/
def starAt? : List Token → Option (Expr × List Token)
  | token :: dot :: second :: rest =>
      if token.isMark "*" then some (.star none, dot :: second :: rest)
      else if dot.isMark "." && second.isMark "*" then some (.star (some token.text), rest)
      else none
  | token :: rest => if token.isMark "*" then some (.star none, rest) else none
  | [] => none

def strideOf? : List Token → Option (Stride × List Token)
  | token :: rest =>
      ([("rows", .rows), ("range", .range), ("groups", .groups)].find? (fun ((word : String), _) =>
        token.isWord word)).map (fun (_, stride) => (stride, rest))
  | [] => none

def exclusionAt (tokens : List Token) : Exclusion × List Token :=
  match Token.after? ["exclude"] tokens with
  | none => (.nothing, tokens)
  | some rest =>
      if Token.startsWith "current" rest then (.row, rest.drop 2)
      else if Token.startsWith "group" rest then (.equals, rest.drop 1)
      else if Token.startsWith "ties" rest then (.others, rest.drop 1)
      else (.nothing, rest.drop 2)

def orderAt (tokens : List Token) : Order × List Token :=
  let descends := Token.startsWith "desc" tokens
  let rest := Token.skipWords ["asc", "desc"] tokens
  if (Token.after? ["nulls", "last"] rest).isSome then
    ({ descends, nullsLast := some true }, rest.drop 2)
  else if (Token.after? ["nulls", "first"] rest).isSome then
    ({ descends, nullsLast := some false }, rest.drop 2)
  else ({ descends }, rest)

def combinationAt? : List Token → Option (Combination × List Token)
  | token :: rest =>
      if token.isWord "union" then
        match Token.after? ["all"] rest with
        | some rest => some (.unionAll, rest)
        | none => some (.union, rest)
      else if token.isWord "intersect" then some (.intersect, rest)
      else if token.isWord "except" then some (.except, rest)
      else none
  | [] => none

def nameOf : Source → Text
  | .table table => table.name
  | .function name _ => name
  | _ => []

def together (sources : Sources) : Sources → Sources
  | .nil => sources
  | .cons source known join on tail => .cons source known join on (together sources tail)

/-- A source among others. The first ones in brackets, if nothing is told of them, are what stands
there; and what stands there alone is only known by the name outside of them. -/
def sourced (isFirst : Bool) (source : Source) (own told index : Option Text) (join : Join)
    (on : Expr) (tail : Sources) : Sources :=
  match source, told with
  | .table table, told =>
      .cons (.table { table with index }) ((told.or own).getD []) join on tail
  | .nested sources, none =>
      if isFirst then together tail sources
      else
        match sources with
        | .cons source _ _ _ .nil => .cons source (nameOf source) join on tail
        | sources => .cons (.nested sources) [] join on tail
  | .nested (.cons source _ _ _ .nil), some known => .cons source known join on tail
  | .nested sources, some known => .cons (.query (.ofSources sources) {}) known join on tail
  | source, told => .cons source ((told.or own).getD []) join on tail

mutual

/-- An expression whose operators bind at least in a degree. -/
def readAt : Nat → Nat → Reader Expr
  | 0, _, _ => nothing
  | fuel + 1, degree, tokens =>
      if degree = 2 then
        match Token.after? ["not"] tokens with
        | some rest => if Token.startsWith "exists" rest then continueAt fuel 2 tokens
            else negated fuel rest
        | none => readAt fuel 3 tokens
      else if degree ≤ 8 then continueAt fuel degree tokens
      else do
        let (e, rest) ← unaryAt fuel tokens
        collatedAt fuel e rest

def negated : Nat → Reader Expr
  | 0, _ => nothing
  | fuel + 1, tokens => do
      let (e, rest) ← readAt fuel 2 tokens
      return (e.not, rest)

/-- An operand and all operators of a degree that follow it. -/
def continueAt : Nat → Nat → Reader Expr
  | 0, _, _ => nothing
  | fuel + 1, degree, tokens => do
      let (e, rest) ← readAt fuel (degree + 1) tokens
      operatorsAt fuel degree e rest

/-- The operators of a degree that follow their left operand. -/
def operatorsAt : Nat → Nat → Expr → Reader Expr
  | 0, _, _, _ => nothing
  | fuel + 1, degree, left, tokens =>
      match operatorAt degree tokens with
      | some (operator, rest) => do
          let (right, rest) ← readAt fuel (degree + 1) rest
          let e :=
            match operator with
            | .compare comparison => compared comparison left right
            | .and => if left.isFalse || right.isFalse then .value (.integer 0)
                else .binary .and left right
            | operator => .binary operator left right
          operatorsAt fuel degree e rest
      | none =>
          if degree = 8 then
            match tokens with
            | token :: rest =>
                if token.isMark "->" || token.isMark "->>" then do
                  let (right, rest) ← readAt fuel 9 rest
                  operatorsAt fuel degree
                    (.call token.text false (.ofList [left, right]) Expr.always) rest
                else .ok (left, tokens)
            | [] => .ok (left, [])
          else if degree ≠ 3 then .ok (left, tokens)
          else do
            let (e?, rest) ← wordOperatorAt fuel left tokens
            match e? with
            | some e => operatorsAt fuel degree e rest
            | none => return (left, rest)

/-- The operators of a degree and of those that bind more, after their left operand, which is
complete. -/
def climbAt : Nat → Nat → Expr → Reader Expr
  | 0, _, _, _ => nothing
  | fuel + 1, degree, left, tokens => do
      let (e, rest) ← if degree < 8 then climbAt fuel (degree + 1) left tokens
        else collatedAt fuel left tokens
      operatorsAt fuel degree e rest

/-- An operator that is a word, after its left operand; none if there is no such operator. -/
def wordOperatorAt : Nat → Expr → Reader (Option Expr)
  | 0, _, _ => nothing
  | _ + 1, _, [] => .ok (none, [])
  | fuel + 1, left, token :: rest =>
      let comparing (comparison : Comparison) (rest : List Token) :
          Outcome (Option Expr × List Token) := do
        let (right, rest) ← readAt fuel 4 rest
        return (some (compared comparison left right), rest)
      let complete (e : Expr) (rest : List Token) : Outcome (Option Expr × List Token) := do
        let (e, rest) ← climbAt fuel 4 e rest
        return (some e, rest)
      if token.isWord "is" then
        match Token.after? ["not", "distinct", "from"] rest, Token.after? ["distinct", "from"] rest,
            Token.after? ["not"] rest with
        | some rest, _, _ => comparing .alike rest
        | none, some rest, _ | none, none, some rest => comparing .unlike rest
        | none, none, none => comparing .alike rest
      else if token.isWord "isnull" then complete (.unary .isNull left) rest
      else if token.isWord "notnull" then complete (Expr.not (.unary .isNull left)) rest
      else
        let negates := token.isWord "not"
        let sign (e : Expr) : Expr := if negates then e.not else e
        match if negates then rest else token :: rest with
        | [] => nothing
        | word :: rest =>
            if negates && word.isWord "null" then complete (sign (.unary .isNull left)) rest
            else if word.isWord "between" then do
              let (low, rest) ← readAt fuel 3 rest
              let (high, rest) ← readAt fuel 4 (← words ["and"] rest)
              return (some (sign (.between left low high)), rest)
            else if word.isWord "in" then do
              let (e, rest) ← membersAt fuel left rest
              let e :=
                match e with
                | some e => sign e
                | none => .truth negates
              complete e rest
            else if word.isOneOf ["like", "glob", "regexp", "match"] then do
              let (pattern, rest) ← readAt fuel 4 rest
              match Token.after? ["escape"] rest with
              | some rest => do
                  let (mark, rest) ← readAt fuel 4 rest
                  return (some (sign (ofCall word.text false [pattern, left, mark] Expr.always)),
                    rest)
              | none =>
                  return (some (sign (ofCall word.text false [pattern, left] Expr.always)), rest)
            else if negates then nothing
            else .ok (none, token :: rest)

/-- What follows `in`; none if that is no value at all. -/
def membersAt : Nat → Expr → Reader (Option Expr)
  | 0, _, _ => nothing
  | fuel + 1, left, tokens =>
      match Token.afterMark? "(" tokens with
      | none => do
          let (table, rest) ← tableAt tokens
          match Token.afterMark? "(" rest with
          | none =>
              return (some (.amongRows left
                (.ofSources (.cons (.table table) table.name {} .always .nil))), rest)
          | some _ => do
              let (arguments, rest) ← operandsAt fuel rest
              let source : Source := .function table.name (.ofList arguments)
              return (some (.amongRows left (.ofSources (.cons source table.name {} .always .nil))),
                rest)
      | some rest =>
          if startsQuery rest then do
            let (query, rest) ← queryAt fuel rest
            return (some (.amongRows left query), ← mark ")" rest)
          else
            match Token.afterMark? ")" rest with
            | some rest => .ok (none, rest)
            | none => do
                let (items, rest) ← exprsAt fuel rest
                let rest ← mark ")" rest
                match ofMembers left items with
                | .ok e => return (some e, rest)
                | .error fault => refuse fault rest

def collatedAt : Nat → Expr → Reader Expr
  | 0, _, _ => nothing
  | fuel + 1, e, tokens =>
      match Token.after? ["collate"] tokens with
      | some (token :: rest) => collatedAt fuel (.collate e (Collation.ofName token.text)) rest
      | some [] => nothing
      | none => .ok (e, tokens)

/-- An operand with the signs before it. -/
def unaryAt : Nat → Reader Expr
  | 0, _ => nothing
  | _ + 1, [] => nothing
  | fuel + 1, token :: rest =>
      let sign (operator : Unary) : Outcome (Expr × List Token) := do
        let (e, rest) ← unaryAt fuel rest
        return (.unary operator e, rest)
      if token.isMark "-" then
        match rest with
        | next :: more =>
            if next.kind = .number && !(ofNumber next.text).isFalse then
              .ok (ofNumber (45 :: next.text), more)
            else sign .negate
        | [] => nothing
      else if token.isMark "+" then sign .same
      else if token.isMark "~" then sign .flip
      else if token.isWord "not" then negated fuel rest
      else operandAt fuel (token :: rest)

def operandAt : Nat → Reader Expr
  | 0, _ => nothing
  | _ + 1, [] => nothing
  | fuel + 1, token :: rest =>
      match token.kind with
      | .number => .ok (ofNumber token.text, rest)
      | .literal => .ok (.value (.text token.text), rest)
      | .bytes => .ok (.value (.blob token.text), rest)
      | .parameter => check (parameterFault? token) .parameter rest
      | .mark =>
          if !token.isMark "(" then nothing
          else if startsQuery rest then do
            let (query, rest) ← queryAt fuel rest
            return (.first query, ← mark ")" rest)
          else do
            let (items, rest) ← exprsAt fuel rest
            let rest ← mark ")" rest
            match items with
            | [e] => return (e, rest)
            | items => return (.row (.ofList items), rest)
      | _ =>
          if token.isWord "case" then
            if Token.startsWith "when" rest then branchesAt fuel none rest
            else do
              let (base, rest) ← readAt fuel 0 rest
              branchesAt fuel (some base) rest
          else if token.isWord "exists" then do
            let (query, rest) ← bracketed (queryAt fuel) rest
            return (.exists query, rest)
          else if token.isWord "cast" && rest.head?.any (Token.isMark "(") then do
            let (e, rest) ← readAt fuel 0 (← mark "(" rest)
            let (type, rest) ← typeAt (← words ["as"] rest)
            return (.cast e (affinityOfType type), rest)
          else if token.isWord "raise" && rest.head?.any (Token.isMark "(") then
            bracketed refusalAt rest
          else
            match if rest.head?.any (Token.isMark ".") then none else ofWord? token with
            | some e => .ok (e, rest)
            | none =>
                if !token.canName then nothing
                else if rest.head?.any (Token.isMark "(") then callAt fuel token (rest.drop 1)
                else columnAt token rest

/-- The operands of a function after the opening bracket, what they are for, and the window. -/
def callAt : Nat → Token → Reader Expr
  | 0, _, _ => nothing
  | fuel + 1, token, tokens => do
      let distinct := Token.startsWith "distinct" tokens
      let (arguments, rest) ← argumentsAt fuel (Token.skipWords ["distinct", "all"] tokens)
      if mostOperands < arguments.length then refuse (.manyOperands token.raw) rest
      let (filter, rest) ←
        behind ["filter"] (bracketed (fun tokens => do
          let (condition, rest) ← readAt fuel 0 (← words ["where"] tokens)
          return (condition.asked, rest))) .always rest
      match Token.after? ["over"] rest with
      | none => return (ofCall token.text distinct arguments filter, rest)
      | some rest => do
          let (window, rest) ←
            if rest.head?.any (Token.isMark "(") then bracketed (windowAt fuel) rest
            else do
              let (known, rest) ← name rest
              pure (.named known, rest)
          check (if distinct then some .distinctWindow else none)
            (.over token.text (.ofList arguments) filter window)
            rest

/-- Operands up to the closing bracket. -/
def argumentsAt : Nat → Reader (List Expr)
  | 0, _ => nothing
  | fuel + 1, tokens =>
      match Token.afterMark? ")" tokens, Token.afterMark? "*" tokens with
      | some rest, _ => .ok ([], rest)
      | none, some rest => do return ([], ← mark ")" rest)
      | none, none => do
          let (arguments, rest) ← exprsAt fuel tokens
          return (arguments, ← mark ")" rest)

def operandsAt : Nat → Reader (List Expr)
  | 0, _ => nothing
  | fuel + 1, tokens => do argumentsAt fuel (← mark "(" tokens)

def windowAt : Nat → Reader Window
  | 0, _ => nothing
  | fuel + 1, tokens => do
      let (base, rest) : Option Text × List Token :=
        match tokens with
        | token :: rest =>
            if token.isOneOf ["partition", "order", "range", "rows", "groups"] ||
              token.isMark ")" then (none, tokens)
            else (token.name?, rest)
        | [] => (none, [])
      let (partition, rest) ← behind ["partition", "by"] (exprsAt fuel) [] rest
      let (keys, rest) ← behind ["order", "by"] (sortAt fuel) [] rest
      let ((frame, low, high), rest) ← frameAt fuel rest
      return (.told base (.ofList partition) (.ofList (keys.map Prod.fst)) (keys.map Prod.snd) frame
        low high, rest)

/-- The rows of a window. Distances that are not fixed are none. -/
def frameAt : Nat → Reader (Frame × Expr × Expr)
  | 0, _ => nothing
  | fuel + 1, tokens =>
      match strideOf? tokens with
      | none => .ok (({}, .value .null, .value .null), tokens)
      | some (stride, rest) => do
          let isBetween := Token.startsWith "between" rest
          let (low, lowBy, rest) ← edgeAt fuel (Token.skipWords ["between"] rest)
          let (high, highBy, rest) ←
            if isBetween then do edgeAt fuel (← words ["and"] rest)
            else pure (.current, .value .null, rest)
          let (exclusion, rest) := exclusionAt rest
          let frame : Frame := { stride, low, high, exclusion, isTold := true }
          check (if frame.isSupported then none else some .frame) (frame, lowBy, highBy) rest

def edgeAt : Nat → List Token → Outcome (Edge × Expr × List Token)
  | 0, _ => nothing
  | fuel + 1, tokens =>
      match Token.after? ["current", "row"] tokens, Token.after? ["unbounded"] tokens with
      | some rest, _ => .ok (.current, .value .null, rest)
      | none, some rest => .ok (.unbounded, .value .null, rest.drop 1)
      | none, none => do
          let (distance, rest) ← readAt fuel 0 tokens
          let distance := if distance.isFixed then distance else .value .null
          match Token.after? ["preceding"] rest with
          | some rest => return (.preceding, distance, rest)
          | none => return (.following, distance, ← words ["following"] rest)

def branchesAt : Nat → Option Expr → Reader Expr
  | 0, _, _ => nothing
  | fuel + 1, base, tokens =>
      match Token.after? ["when"] tokens with
      | some rest => do
          let (told, rest) ← readAt fuel 0 rest
          let (yes, rest) ← readAt fuel 0 (← words ["then"] rest)
          let (no, rest) ← branchesAt fuel base rest
          let condition :=
            match base with
            | some base => Expr.binary (.compare .equal) base told
            | none => told.asked
          return (.choose condition yes no, rest)
      | none => do
          let (e, rest) ← behind ["else"] (readAt fuel 0) (.value .null) tokens
          return (e, ← words ["end"] rest)

/-- Expressions with commas between them. -/
def exprsAt : Nat → Reader (List Expr)
  | 0, _ => nothing
  | fuel + 1, tokens => separated (readAt fuel 0) tokens

/-- What a query answers: an expression, perhaps with a name, or all columns. -/
def resultAt : Nat → Reader (Option Title × Expr)
  | 0, _ => nothing
  | fuel + 1, tokens =>
      match starAt? tokens with
      | some (star, rest) => .ok ((none, star), rest)
      | none => do
          let (e, rest) ← readAt fuel 0 tokens
          let written := Token.written (tokens.take (tokens.length - rest.length))
          let (name, rest) := aliasAt rest
          let title : Title :=
            (name.map (fun text => { text, isTold := true })).getD
            { text := written, isTold := false }
          return ((some title, e), rest)

/-- Something that a query looks through, and what it is known as unless it is told. -/
def sourceAt : Nat → Reader (Source × Option Text)
  | 0, _ => nothing
  | fuel + 1, tokens =>
      match Token.afterMark? "(" tokens with
      | none => do
          let (table, rest) ← tableAt tokens
          if !rest.head?.any (Token.isMark "(") then return ((.table table, some table.name), rest)
          else do
            let (arguments, rest) ← operandsAt fuel rest
            return ((.function table.name (.ofList arguments), some table.name), rest)
      | some rest =>
          if startsQuery rest then do
            let (query, rest) ← queryAt fuel rest
            return ((.query query {}, none), ← mark ")" rest)
          else do
            let (sources, rest) ← sourcesAt fuel true {} rest
            return ((.nested sources, none), ← mark ")" rest)

/-- What a query looks through, each with the join that stands before it. -/
def sourcesAt : Nat → Bool → Join → Reader Sources
  | 0, _, _, _ => nothing
  | fuel + 1, isFirst, join, tokens => do
      let ((source, own), rest) ← sourceAt fuel tokens
      let (told, rest) := aliasAt rest
      let (index, rest) := indexAt rest
      let ((join, on), rest) ← partnersAt isFirst (readAt fuel 0) join rest
      let (next, rest) ← joinAt rest
      let (tail, rest) ←
        match next with
        | some next => sourcesAt fuel false next rest
        | none => pure (.nil, rest)
      return (sourced isFirst source own told index join on tail, rest)

def sortAt : Nat → Reader (List (Expr × Order))
  | 0, _ => nothing
  | fuel + 1, tokens =>
      separated (fun tokens => do
        let (e, rest) ← readAt fuel 0 tokens
        let (order, rest) := orderAt rest
        return ((e, order), rest)) tokens

def singleAt : Nat → Reader Query
  | 0, _ => nothing
  | fuel + 1, tokens =>
      match Token.after? ["values"] tokens with
      | some rest => do
          let (rows, rest) ← separated (bracketed (exprsAt fuel)) rest
          return (ofRows rows, rest)
      | none => do
          let rest ← words ["select"] tokens
          let selection : Selection := if Token.startsWith "distinct" rest then .distinct
            else .every
          let (results, rest) ← separated (resultAt fuel) (Token.skipWords ["distinct", "all"] rest)
          let (sources, rest) ← behind ["from"] (sourcesAt fuel true {}) .nil rest
          let (condition, rest) ← behind ["where"] (readAt fuel 0) .always rest
          let condition := condition.asked
          let (groups, rest) ← behind ["group", "by"] (exprsAt fuel) [] rest
          let (having, rest) ← behind ["having"] (readAt fuel 0) .always rest
          let having := having.asked
          let (windows, rest) ← behind ["window"] (windowsAt fuel []) [] rest
          let (keys, rest) ← behind ["order", "by"] (sortAt fuel) [] rest
          let ((limit, offset), rest) ← limitAt fuel rest
          let results :=
            (results.foldr (fun (title, e) es => Exprs.cons title e es) .nil).within windows
          let sort := (Exprs.ofList (keys.map Prod.fst)).within windows
          return (.select selection results sources condition (.ofList groups) having sort
            (keys.map Prod.snd) limit
            offset, rest)

/-- How many results are answered, and how many are left out before them. -/
def limitAt : Nat → Reader (Expr × Expr)
  | 0, _ => nothing
  | fuel + 1, tokens =>
      match Token.after? ["limit"] tokens with
      | none => .ok ((.noLimit, .noOffset), tokens)
      | some rest => do
          let (limit, rest) ← readAt fuel 0 rest
          match Token.after? ["offset"] rest, Token.afterMark? "," rest with
          | some rest, _ => do
              let (offset, rest) ← readAt fuel 0 rest
              return ((limit, offset), rest)
          | none, some rest => do
              let (count, rest) ← readAt fuel 0 rest
              return ((count, limit), rest)
          | none, none => return ((limit, .noOffset), rest)

def windowsAt : Nat → Window.Names → Reader Window.Names
  | 0, _, _ => nothing
  | fuel + 1, windows, tokens => do
      let (known, rest) ← name tokens
      let (window, rest) ← bracketed (windowAt fuel) (← words ["as"] rest)
      let (window, rest) ←
        match if windows.isEmpty then .ok window else window.chained windows with
        | .ok window => pure (window, rest)
        | .error cause => refuse (.engine cause) rest
      let windows := (known, window) :: windows
      match Token.afterMark? "," rest with
      | some rest => windowsAt fuel windows rest
      | none => return (windows, rest)

/-- Queries that are put together with the one before them. -/
def combinationsAt : Nat → Reader (List (Combination × Query))
  | 0, _ => nothing
  | fuel + 1, tokens =>
      match combinationAt? tokens with
      | none => .ok ([], tokens)
      | some (combination, rest) => do
          let (query, rest) ← singleAt fuel rest
          let (others, rest) ← combinationsAt fuel rest
          return ((combination, query) :: others, rest)

def namedAt : Nat → List View → Reader (List View)
  | 0, _, _ => nothing
  | fuel + 1, views, tokens => do
      let (known, rest) ← name tokens
      let (columns, rest) := namesAt rest
      let rest := Token.skipWords ["not", "materialized"] (← words ["as"] rest)
      let (query, rest) ← bracketed (queryAt fuel) rest
      if views.any (View.isNamed known) then refuse (.repeatedQuery known) rest
      let views := views ++ [{ name := known, columns, query }]
      match Token.afterMark? "," rest with
      | some rest => namedAt fuel views rest
      | none => return (views, rest)

def queryAt : Nat → Reader Query
  | 0, _ => nothing
  | fuel + 1, tokens => do
      let (views, rest) ←
        behind ["with"] (fun rest => namedAt fuel [] (Token.skipWords ["recursive"] rest)) [] tokens
      let (first, rest) ← singleAt fuel rest
      let (others, rest) ← combinationsAt fuel rest
      match combined first others with
      | .ok query => return (View.before views query, rest)
      | .error fault => refuse fault rest

end

/-- Each token opens at most eleven degrees and a few brackets. -/
def fuelFor (tokens : List Token) : Nat := 24 * (tokens.length + 1)

def read : Reader Expr := fun tokens => readAt (fuelFor tokens) 0 tokens

def query : Reader Query := fun tokens => queryAt (fuelFor tokens) tokens

def keys : Reader (List (Expr × Order)) := fun tokens => sortAt (fuelFor tokens) tokens

def ofTokens (tokens : List Token) : Outcome Expr := do
  let (e, rest) ← read (tokens ++ [Token.stop])
  if rest = [Token.stop] then return e else nothing

end Grammar
end CodeAudit
