import CodeAudit.Store.Relation.Grammar
import CodeAudit.Store.Relation.Phrase

/-!
What the declaration of a table is made of: columns, each with its rules, and rules of the whole
table. The last of them counts only if something follows it.
-/
namespace CodeAudit

inductive Clause where
  | column (name type : Text)
  /-- The name of the rules from here on. -/
  | label (name : Option Text)
  | fallback (value : Option Expr)
  | required (resolution : Resolution)
  | collation (collation : Collation)
  | check (written : Text) (condition : Option Expr)
  /-- The value follows from those of other columns. It may be told whether it is kept. -/
  | computation (value : Option Expr) (storage : Option Text)
  /-- What rows may not repeat; the last column if it is not told. -/
  | unique (parts : Option (List (Expr × Order))) (resolution : Option Resolution)
  | primary (parts : Option (List (Expr × Order))) (descends counts : Bool)
      (resolution : Option Resolution)
  /-- Columns, or the last one, refer to a number of columns of a table. -/
  | reference (columns : Option (List Text)) (table : Text) (count : Option Nat)
  /-- What is no clause, and why. -/
  | wrong (fault : DeclarationFault)

namespace Clause

/-- Where clauses are read: at a column, among its rules, or among those of the table. -/
inductive Part where
  | column | ofColumn | ofTable
deriving DecidableEq, Repr

/-- A clause that is read, if there is one, where the next one is read, and from what. -/
abbrev Step := Option Clause × Part × List Token

def tableWords : List String := ["constraint", "primary", "unique", "check", "foreign"]

def isTypeWord (token : Token) : Bool :=
  [Token.Kind.name, .quoted, .literal].contains token.kind ||
    (token.kind == .word && !token.isOneOf Phrase.reserved)

/-- What is left of a text without a word at its end and the blanks before that. -/
def withoutEnd? (word : String) (t : Text) : Option Text :=
  if (utf8 word).isSuffixOf t.lower then
    some (Text.dropTrailingBlanks (t.take (t.length - word.length))) else none

/-- A type without the words for a computed column, which are read as a part of it. -/
def typeOf (written : Text) : Text :=
  if written.length < 16 then written
  else
    match withoutEnd? "always" written with
    | some shorter => (withoutEnd? "generated" shorter).getD shorter
    | none => written

def columnAt (name : Token) (rest : List Token) : Clause × List Token :=
  let words := rest.takeWhile isTypeWord
  let after := rest.drop words.length
  let sized : Option (List Token) := if words.isEmpty then none
    else (Token.enclosed? after).map Prod.snd
  let after := sized.getD after
  let type := Token.unquoted (typeOf (Token.written (rest.take (rest.length - after.length))))
  (.column (name.name?.getD []) type, after)

/-- How a rule is resolved, if that is told. Where it is not told to the end there is nothing
more. -/
def conflictAt (tokens : List Token) : Option Resolution × List Token :=
  match (Token.after? ["on", "conflict"] tokens).bind Grammar.resolution? with
  | some (resolution, rest) => (some resolution, rest)
  | none => (none, if Token.startsWith "on" tokens then [] else tokens)

def about (clause : Option Expr → Clause) (tokens : List Token) : Clause :=
  match Grammar.ofTokens tokens with
  | .ok e => clause (some e)
  | .error none => clause none
  | .error (some fault) => .wrong fault

/-- The value that a column has if none is given. A name stands for itself. -/
def fallbackAt : List Token → Clause × List Token
  | [] => (.fallback none, [])
  | token :: rest =>
      if token.isMark "(" then
        match Token.enclosed? (token :: rest) with
        | some (inside, rest) => (about .fallback inside, rest)
        | none => (.fallback none, [])
      else if token.isMark "-" || token.isMark "+" then
        (about .fallback (token :: rest.take 1), rest.drop 1)
      else
        match Grammar.ofWord? token, token.kind with
        | some e, _ => (.fallback (some e), rest)
        | none, .number | none, .bytes => (about .fallback [token], rest)
        | none, _ => (.fallback (some (.value (.text token.text))), rest)

/-- A clause about some parts, of which it may be told that they count. What is not understood is no
column. -/
def aboutParts (clause : List (Expr × Order) → Bool → Clause) (inside : List Token) : Clause :=
  let counts := inside.getLast?.any (Token.isWord "autoincrement")
  match Grammar.keys (inside ++ [Token.stop]) with
  | .ok (parts, _) => clause parts counts
  | .error none => clause [(.star none, {})] counts
  | .error (some fault) => .wrong fault

def afterActions : List Token → List Token
  | [] => []
  | token :: rest =>
      if token.isOneOf ["on", "insert", "delete", "update", "cascade", "restrict", "no",
        "action"] then
        afterActions rest
      else if token.isOneOf ["set", "match"] then
        match rest with
        | _ :: rest => afterActions rest
        | [] => []
      else token :: rest

/-- What some columns refer to. Where the names of columns are not told to the end there is nothing
more. -/
def referenceAt (columns : Option (List Text)) (tokens : List Token) : Clause × List Token :=
  let (names, rest) := Grammar.namesAt (tokens.drop 1)
  let rest := if rest.head?.any (Token.isMark "(") then [] else rest
  (.reference columns ((tokens.head?.map Token.raw).getD [])
    (if names.isEmpty then none else some names.length),
    afterActions rest)

/-- The rule about a condition in brackets. -/
def checkAt (part : Part) (tokens : List Token) : Step :=
  match Token.enclosed? tokens with
  | some (inside, rest) =>
      let check (condition : Option Expr) : Clause :=
        .check (Token.unquoted (Token.written inside)) (condition.map Expr.asked)
      (some (about check inside), part, rest)
  | none => (none, part, [])

def labelAt (part : Part) (tokens : List Token) : Step :=
  (some (.label (tokens.head?.bind Token.name?)), part, tokens.drop 1)

def columnRuleAt (token : Token) (rest : List Token) : Step :=
  let found (clause : Clause) (rest : List Token) : Step := (some clause, .ofColumn, rest)
  if token.isWord "constraint" then labelAt .ofColumn rest
  else if token.isWord "default" then
    let (clause, rest) := fallbackAt rest
    found clause rest
  else if token.isWord "not" && Token.startsWith "null" rest then
    let (resolution, rest) := conflictAt (rest.drop 1)
    found (.required (resolution.getD .abort)) rest
  else if token.isWord "collate" then
    found (.collation (((rest.head?.bind Token.name?).map Collation.ofName).getD .binary))
      (rest.drop 1)
  else if token.isWord "check" then checkAt .ofColumn rest
  else if token.isWord "as" then
    match Token.enclosed? rest with
    | some (inside, rest) =>
        let storage := rest.head?.filter isTypeWord
        found (about (fun value => .computation value (storage.map Token.raw)) inside)
          (if storage.isSome then rest.drop 1 else rest)
    | none => (none, .ofColumn, [])
  else if token.isWord "unique" then
    let (resolution, rest) := conflictAt rest
    found (.unique none resolution) rest
  else if token.isWord "primary" then
    let rest := rest.drop 1
    let (resolution, after) := conflictAt (Token.skipWords ["asc", "desc"] rest)
    let counts := Token.startsWith "autoincrement" after
    found (.primary none (Token.startsWith "desc" rest) counts resolution)
      (if counts then after.drop 1 else after)
  else if token.isWord "references" then
    let (clause, rest) := referenceAt none rest
    found clause rest
  else (none, .ofColumn, rest)

def tableRuleAt (token : Token) (rest : List Token) : Step :=
  let found (clause : Clause) (rest : List Token) : Step := (some clause, .ofTable, rest)
  if token.isWord "constraint" then labelAt .ofTable rest
  else if token.isWord "check" then checkAt .ofTable rest
  else if token.isWord "unique" then
    match Token.enclosed? rest with
    | some (inside, rest) =>
        let (resolution, rest) := conflictAt rest
        found (aboutParts (fun parts _ => .unique (some parts) resolution) inside) rest
    | none => (none, .ofTable, [])
  else if token.isWord "primary" then
    match Token.enclosed? (rest.drop 1) with
    | some (inside, rest) =>
        let (resolution, rest) := conflictAt rest
        found (aboutParts (fun parts counts => .primary (some parts) false counts resolution)
          inside) rest
    | none => (none, .ofTable, [])
  else if token.isWord "foreign" then
    match Token.enclosed? (rest.drop 1) with
    | some (_, after) =>
        let (clause, after) := referenceAt (some (Grammar.namesAt (rest.drop 1)).1) (after.drop 1)
        found clause
          (Token.skipWords ["not", "deferrable", "initially", "deferred", "immediate"] after)
    | none => (none, .ofTable, [])
  else (none, .ofTable, rest)

/-- The next clause. A rule of the table has no name but its own, unless it is the first one. -/
def next (part : Part) (token : Token) (rest : List Token) : Step :=
  if token.isMark "," then
    if part = .ofTable then (some (.label none), .ofTable, rest) else (none, .column, rest)
  else
    match part with
    | .column =>
        if token.isOneOf tableWords then tableRuleAt token rest
        else
          let (clause, rest) := columnAt token rest
          (some clause, .ofColumn, rest)
    | .ofColumn => columnRuleAt token rest
    | .ofTable => tableRuleAt token rest

/-- Clauses up to the closing bracket, and what follows that. Every round takes a token, so their
number bounds the rounds. -/
def readFrom : Nat → Part → List Token → List Clause × List Token
  | 0, _, tokens => ([], tokens)
  | _ + 1, _, [] => ([], [])
  | fuel + 1, part, token :: rest =>
      if token.isMark ")" then ([], rest)
      else
        let (clause, part, after) := next part token rest
        let (clauses, rest) := readFrom fuel part after
        (if after.isEmpty then [] else clause.toList ++ clauses, rest)

def read (tokens : List Token) : List Clause × List Token :=
  readFrom (tokens.length + 1) .column tokens

/-- What is told of a table as a whole. -/
structure Trait where
  /-- The table goes without it. -/
  negated : Bool
  name : Text

/-- What is told of a table after the closing bracket. -/
def traitsFrom (negated : Bool) : List Token → List Trait
  | [] => []
  | token :: rest =>
      if token.isMark "," then traitsFrom false rest
      else if token.isMark ";" || rest.isEmpty then []
      else if token.isWord "without" && !negated then traitsFrom true rest
      else { negated, name := token.raw } :: traitsFrom false rest

end Clause
end CodeAudit
