import CodeAudit.Fault
import CodeAudit.Store.Relation.Token

/-!
What may follow what in a declaration. Every phrase has some forms, which are made of words, names,
values and other phrases. Reading a token leaves the ways in which a declaration can still go on;
the first token that leaves none is misplaced.
-/
namespace CodeAudit

/-- Where an expression stands, as far as that tells what may follow it. -/
structure Phrase.Place where
  /-- In front of the `and` that belongs to `between`. -/
  low : Bool := false
  /-- After a pattern, which may have an escape. -/
  matched : Bool := false
deriving DecidableEq, Repr

inductive Phrase where
  | creation | lasting | optional | id | label | joinWord | name | names | moreNames | qualifier
      | parts | partList
  | moreParts | part | collation | tableBody | columns | moreColumns | column | columnType
      | moreType | typeSize
  | typeEnd | signed | castType | moreCastType | constraints | moreConstraints | constraint
      | counting | computed
  | kept | conflict | resolution | deferral | deferralOrNone | initially | references
      | referenceActions
  | referenceAction | tableRules | moreTableRules | tableRule | options | moreOptions | option
      | arguments
  | argumentTokens | triggerTime | triggerEvent | eachRow | whenClause | steps | moreSteps | step
      | alternative
  | columnList | indexed | sets | moreSets | set | amendments | amending | returning | select | core
      | moreCores
  | combination | single | selection | results | moreResults | result | aliasing | fromClause
      | sources | moreSources
  | source | sourceRest | joinOperator | joinCondition | whereClause | groupClause | havingClause
      | windowClause
  | windows | moreWindows | orderClause | limitClause | limitRest | sorts | moreSorts | sort
      | direction | nulls
  | queries | moreQueries | query | materialized | rows | moreRows | expr (place : Phrase.Place)
  | tail (place : Phrase.Place) | parameter | refusal | members | operands | exprs | moreExprs
      | exprsOrNone | operand | call
  | callOrNone | moreNamed | following | overWindow | cases | branches | moreBranches | window
      | partition | windowOrder
  | frame | frameStart | frameEnd | side | exclusion
deriving DecidableEq, Repr

/-- What a form of a phrase is made of. -/
inductive Symbol where
  /-- A keyword or a mark. -/
  | word (spelling : String)
  | identifier | text | number | bytes | unknown
  /-- The word before the condition of a join, which it is taken for wherever it can be. -/
  | on
  /-- Anything but brackets. -/
  | anything
  /-- The end of the declaration. -/
  | close
  /-- Nothing goes on here. -/
  | never
  | phrase (p : Phrase)
deriving DecidableEq, Repr

instance : Coe String Symbol := ⟨Symbol.word⟩
instance : Coe Phrase Symbol := ⟨Symbol.phrase⟩

/-- The ways in which a phrase is written. -/
abbrev Forms := List (List Symbol)

namespace Forms

def oneOf (words : List String) : Forms := words.map (fun word => [Symbol.word word])

def also (a b : Forms) : Forms := a ++ b

/-- What begins in some ways and goes on in one. -/
def leading (starts : Forms) (rest : List Symbol) : Forms := starts.map (fun start => start ++ rest)

def around (words : List String) (forms : Symbol → Forms) : Forms :=
  words.flatMap (fun word => forms (.word word))

end Forms

namespace Phrase

/-- The words before a join. They stand for names elsewhere. -/
def joinWords : List String := ["cross", "full", "inner", "left", "natural", "outer", "right"]

/-- An expression that stands alone. -/
abbrev whole : Phrase := expr {}

/-- Operators with an operand on either side, which bind more tightly than patterns. -/
def tightOperators : List String :=
  ["<", "<=", ">", ">=", "&", "|", "<<", ">>", "+", "-", "*", "/", "%", "||", "->", "->>"]

/-- Operators with an operand on either side, which bind as tightly as patterns. -/
def looseOperators : List String := ["=", "==", "<>", "!=", "is"]

/-- What can follow an operand. Where `and` stands for something else, no condition goes on with it,
and none that goes on with `or` comes to an end. -/
def tails (place : Place) : Forms :=
  let next : Phrase := expr { place with matched := false }
  let tight := Forms.leading (Forms.oneOf tightOperators) [expr place]
  let loose := Forms.leading (Forms.oneOf looseOperators) [next]
  let logical : Forms := if place.low then [["or", whole, .never]]
    else [["and", next], ["or", next]]
  let matching := Forms.around ["like", "glob", "regexp", "match"] (fun word =>
    [[word, expr { place with matched := true }],
      ["not", word, expr { place with matched := true }]])
  let escape : Forms := if place.matched then [["escape", next]] else []
  let membership := Forms.leading [["in"], ["not", "in"]]
    [members, tail { place with matched := false }]
  let others : Forms :=
    [[], ["collate", label, tail place], ["isnull", tail { place with matched := false }],
     ["notnull", tail { place with matched := false }],
       ["not", "null", tail { place with matched := false }],
     ["is", "not", "distinct", "from", next], ["is", "distinct", "from", next],
     ["between", expr { low := true }, "and", next],
       ["not", "between", expr { low := true }, "and", next]]
  (tight.also loose).also ((logical.also matching).also ((escape.also membership).also others))

/-- The forms of a phrase. No two of them begin with the same long phrase, so that reading it leaves
one way. -/
def forms : Phrase → Forms
  | creation =>
      [["virtual", "table", optional, name, qualifier, "using", name, arguments],
       ["index", optional, name, qualifier, "on", name, "(", sorts, ")", whereClause],
       ["unique", "index", optional, name, qualifier, "on", name, "(", sorts, ")", whereClause],
       [lasting], ["temp", lasting], ["temporary", lasting]]
  | lasting =>
      [["table", optional, name, qualifier, tableBody],
       ["view", optional, name, qualifier, parts, "as", select],
       ["trigger", optional, name, qualifier, triggerTime, triggerEvent, "on", name,
         qualifier, eachRow,
          whenClause, "begin", steps, "end"]]
  | optional => [[], ["if", "not", "exists"]]
  | id => [[.identifier], ["indexed"]]
  | label => [[.identifier], [.text]]
  | joinWord => Forms.oneOf joinWords
  | name => [[id], [joinWord], [.text]]
  | names => [[name, moreNames]]
  | moreNames => [[], [",", names]]
  | qualifier => [[], [".", name]]
  | parts => [[], ["(", partList, ")"]]
  | partList => [[part, moreParts]]
  | moreParts => [[], [",", partList]]
  | part => [[name, collation, direction]]
  | collation => [[], ["collate", label]]
  -- Tables
  | tableBody => [["(", columns, ")", options], ["as", select]]
  | columns => [[column, moreColumns]]
  | moreColumns => [[], [",", columns], [",", tableRules]]
  | column => [[name, columnType]]
  | columnType => [[label, moreType], [constraints]]
  | moreType => [[label, moreType], [typeSize, moreConstraints], [constraints]]
  | typeSize => [["(", signed, typeEnd]]
  | typeEnd => [[")"], [",", signed, ")"]]
  | signed => [[.number], ["+", .number], ["-", .number]]
  | castType => [[], [label, moreCastType]]
  | moreCastType => [[], [label, moreCastType], [typeSize]]
  | constraints => [[], [constraint, moreConstraints], ["as", computed]]
  | moreConstraints => [[constraints], ["generated", "always", "as", computed]]
  | constraint =>
      [["constraint", name], ["default", operand], ["default", "(", whole, ")"],
        ["default", "+", operand],
       ["default", "-", operand], ["default", id], ["null", conflict], ["not", "null", conflict],
       ["primary", "key", direction, conflict, counting],
       ["unique", conflict], ["check", "(", whole, ")"], [references], [deferral],
         ["collate", label]]
  | counting => [[], ["autoincrement"]]
  | computed => [["(", whole, ")", kept]]
  | kept => [[constraints], [.identifier, moreConstraints]]
  | conflict => [[], ["on", "conflict", resolution]]
  | resolution => Forms.oneOf ["rollback", "abort", "fail", "ignore", "replace"]
  | deferral => [["deferrable", initially], ["not", "deferrable", initially]]
  | deferralOrNone => [[], [deferral]]
  | initially => [[], ["initially", "deferred"], ["initially", "immediate"]]
  | references => [["references", name, parts, referenceActions]]
  | referenceActions =>
      Forms.also [[], ["match", name, referenceActions]]
        (Forms.around ["insert", "delete", "update"] (fun event =>
          [["on", event, referenceAction, referenceActions]]))
  | referenceAction =>
      [["set", "null"], ["set", "default"], ["cascade"], ["restrict"], ["no", "action"]]
  | tableRules => [[tableRule, moreTableRules]]
  | moreTableRules => [[], [tableRules], [",", tableRules]]
  | tableRule =>
      [["constraint", name], ["primary", "key", "(", sorts, counting, ")", conflict],
       ["unique", "(", sorts, ")", conflict], ["check", "(", whole, ")", conflict],
       ["foreign", "key", "(", partList, ")", references, deferralOrNone]]
  | options => [[moreOptions], [option, moreOptions]]
  | moreOptions => [[], [",", option, moreOptions]]
  | option => [["without", name], [name]]
  | arguments => [[], ["(", argumentTokens, ")"]]
  | argumentTokens => [[], [.anything, argumentTokens], ["(", argumentTokens, ")", argumentTokens]]
  -- Triggers
  | triggerTime => [[], ["before"], ["after"], ["instead", "of"]]
  | triggerEvent => [["delete"], ["insert"], ["update"], ["update", "of", names]]
  | eachRow => [[], ["for", "each", "row"]]
  | whenClause => [[], ["when", whole]]
  | steps => [[step, ";", moreSteps]]
  | moreSteps => [[], [steps]]
  | step =>
      [["update", alternative, name, qualifier, indexed, "set", sets, fromClause, whereClause],
       ["insert", alternative, "into", name, qualifier, columnList, select, amendments],
       ["replace", "into", name, qualifier, columnList, select, amendments],
       ["delete", "from", name, qualifier, indexed, whereClause],
       [select]]
  | alternative => [[], ["or", resolution]]
  | columnList => [[], ["(", names, ")"]]
  | indexed => [[], ["indexed", "by", name], ["not", "indexed"]]
  | sets => [[set, moreSets]]
  | moreSets => [[], [",", sets]]
  | set => [[name, "=", whole], ["(", names, ")", "=", whole]]
  | amendments =>
      [[], ["returning", results], ["on", "conflict", "(", sorts, ")", whereClause, "do", amending],
       ["on", "conflict", "do", "nothing", returning],
       ["on", "conflict", "do", "update", "set", sets, whereClause, returning]]
  | amending => [["update", "set", sets, whereClause, amendments], ["nothing", amendments]]
  | returning => [[], ["returning", results]]
  -- Queries
  | select => [[core], ["with", queries, core], ["with", "recursive", queries, core]]
  | core => [[single, moreCores]]
  | moreCores => [[], [combination, core]]
  | combination => [["union"], ["union", "all"], ["except"], ["intersect"]]
  | single =>
      [["select", selection, results, fromClause, whereClause, groupClause, havingClause,
        windowClause, orderClause,
        limitClause], ["values", rows]]
  | selection => [[], ["distinct"], ["all"]]
  | results => [[result, moreResults]]
  | moreResults => [[], [",", results]]
  | result => [["*"], [name, ".", "*"], [whole, aliasing]]
  | aliasing => [[], [label], ["as", name]]
  | fromClause => [[], ["from", sources]]
  | sources => [[source, moreSources]]
  | moreSources => [[], [joinOperator, sources]]
  | source =>
      [[name, qualifier, sourceRest, joinCondition], ["(", select, ")", aliasing, joinCondition],
       ["(", sources, ")", aliasing, joinCondition]]
  | sourceRest => [[aliasing, indexed], ["(", exprsOrNone, ")", aliasing]]
  | joinOperator =>
      [[","], ["join"], [joinWord, "join"], [joinWord, name, "join"],
        [joinWord, name, name, "join"]]
  | joinCondition => [[], [.on, whole], ["using", "(", names, ")"]]
  | whereClause => [[], ["where", whole]]
  | groupClause => [[], ["group", "by", exprs]]
  | havingClause => [[], ["having", whole]]
  | windowClause => [[], ["window", windows]]
  | windows => [[name, "as", "(", window, ")", moreWindows]]
  | moreWindows => [[], [",", windows]]
  | orderClause => [[], ["order", "by", sorts]]
  | limitClause => [[], ["limit", whole, limitRest]]
  | limitRest => [[], ["offset", whole], [",", whole]]
  | sorts => [[sort, moreSorts]]
  | moreSorts => [[], [",", sorts]]
  | sort => [[whole, direction, nulls]]
  | direction => [[], ["asc"], ["desc"]]
  | nulls => [[], ["nulls", "first"], ["nulls", "last"]]
  | queries => [[query, moreQueries]]
  | moreQueries => [[], [",", queries]]
  | query => [[name, parts, "as", materialized, "(", select, ")"]]
  | materialized => [[], ["materialized"], ["not", "materialized"]]
  | rows => [["(", exprs, ")", moreRows]]
  | moreRows => [[], [",", rows]]
  -- Expressions
  | expr place =>
      [["not", expr place], ["~", expr place], ["+", expr place], ["-", expr place],
        [operand, tail place],
       [parameter, tail place], [id, callOrNone, tail place], [joinWord, tail place],
       [name, ".", name, moreNamed, tail place],
       ["(", exprs, ")", tail place], ["(", select, ")", tail place],
       ["cast", "(", whole, "as", castType, ")", tail place],
         ["exists", "(", select, ")", tail place],
       ["case", cases, tail place], ["raise", "(", "ignore", ")", tail place],
       ["raise", "(", refusal, ",", name, ")", tail place]]
  | tail place => tails place
  | parameter => [[.unknown]]
  | refusal => Forms.oneOf ["rollback", "abort", "fail"]
  | members => [["(", exprsOrNone, ")"], ["(", select, ")"], [name, qualifier, operands]]
  | operands => [[], ["(", exprsOrNone, ")"]]
  | exprs => [[whole, moreExprs]]
  | moreExprs => [[], [",", exprs]]
  | exprsOrNone => [[], [exprs]]
  | operand =>
      [["null"], [.number], [.bytes], [.text], ["current_time"], ["current_date"],
        ["current_timestamp"]]
  | call => [["(", "*", ")", following], ["(", selection, exprsOrNone, ")", following]]
  | callOrNone => [[], [call]]
  | moreNamed => [[], [".", name]]
  | following => [[overWindow], ["filter", "(", "where", whole, ")", overWindow]]
  | overWindow => [[], ["over", name], ["over", "(", window, ")"]]
  | cases => [[branches], [whole, branches]]
  | branches => [["when", whole, "then", whole, moreBranches]]
  | moreBranches => [["end"], ["else", whole, "end"], [branches]]
  | window => [[partition, windowOrder], [name, partition, windowOrder]]
  | partition => [[], ["partition", "by", exprs]]
  | windowOrder => [[orderClause, frame]]
  | frame =>
      Forms.also [[]] (Forms.around ["range", "rows", "groups"] (fun unit =>
        [[unit, frameStart, exclusion], [unit, "between", frameStart, "and", frameEnd, exclusion]]))
  | frameStart => [[whole, side], ["current", "row"], ["unbounded", "preceding"]]
  | frameEnd => [[whole, side], ["current", "row"], ["unbounded", "following"]]
  | side => [["preceding"], ["following"]]
  | exclusion =>
      [[], ["exclude", "no", "others"], ["exclude", "current", "row"], ["exclude", "group"],
        ["exclude", "ties"]]

/-- The words that stand for names wherever nothing goes on with them as words. -/
def yielding : List String :=
  ["abort", "action", "after", "always", "analyze", "asc", "attach", "before", "begin", "by",
    "cascade", "cast",
   "column", "conflict", "current", "current_date", "current_time", "current_timestamp", "database",
     "deferred",
   "desc", "detach", "do", "each", "end", "exclude", "exclusive", "explain", "fail", "first",
     "following", "for",
   "generated", "glob", "groups", "if", "ignore", "immediate", "initially", "instead", "key",
     "last", "like", "match",
   "materialized", "no", "nulls", "of", "offset", "others", "partition", "plan", "pragma",
     "preceding", "query",
   "raise", "range", "recursive", "regexp", "reindex", "release", "rename", "replace", "restrict",
     "rollback", "row",
   "rows", "savepoint", "temp", "temporary", "ties", "trigger", "unbounded", "vacuum", "view",
     "virtual", "with",
   "without"]

/-- The words that never stand for names, besides those of joins. -/
def reserved : List String :=
  ["add", "all", "alter", "and", "as", "autoincrement", "between", "case", "check", "collate",
    "commit", "constraint",
   "create", "cross", "default", "deferrable", "delete", "distinct", "drop", "else", "escape",
     "except", "exists",
   "filter", "foreign", "from", "full", "group", "having", "in", "index", "indexed", "inner",
     "insert", "intersect",
   "into", "is", "isnull", "join", "left", "limit", "natural", "not", "nothing", "notnull", "null",
     "on", "or",
   "order", "outer", "over", "primary", "references", "returning", "right", "select", "set",
     "table", "then", "to",
   "transaction", "union", "unique", "update", "using", "values", "when", "where", "window"]

end Phrase

namespace Token

def canName (token : Token) : Bool :=
  [Kind.name, .quoted, .literal].contains token.kind ||
    (token.kind == .word &&
      (!token.isOneOf Phrase.reserved || token.isOneOf (Phrase.joinWords ++ ["over", "window"])))

/-- The words for windows and for filters are names unless what stands around them makes them words.
The token before the first one may be a closing bracket. -/
def settled (isClosed : Bool) : List Token → List Token
  | [] => []
  | token :: rest =>
      let opens := rest.head?.any (Token.isMark "(")
      let names := rest.head?.any canName
      let isName :=
        (token.isWord "filter" && !(isClosed && opens)) ||
          (token.isWord "over" && !(isClosed && (opens || names))) ||
          (token.isWord "window" && !(names && Token.startsWith "as" (rest.drop 1)))
      (if isName then { token with kind := .name } else token) :: settled (token.isMark ")") rest

end Token

namespace Symbol

def admits (token : Token) : Symbol → Bool
  | word spelling => token.isMark spelling || token.isWord spelling
  | identifier =>
      [Token.Kind.name, .quoted].contains token.kind ||
        (token.kind == .word && !token.isOneOf Phrase.yielding && !token.isOneOf Phrase.reserved)
  | text => token.kind == .literal
  | number => token.kind == .number
  | bytes => token.kind == .bytes
  | unknown => token.kind == .parameter
  | on => token.isWord "on"
  | anything => !token.isMark "(" && !token.isMark ")"
  | close => token.isMark ";"
  | never | phrase _ => false

end Symbol

/-- What a declaration can still go on with. -/
abbrev Way := List Symbol

namespace Way

/-- The ways that begin with a symbol which is no phrase, instead of one that may. No phrase begins
with itself, so the depth is that of phrases within each other, for each phrase of the way that may
be left out. -/
def opened : Nat → Way → List Way
  | fuel + 1, .phrase p :: rest => p.forms.flatMap (fun form => opened fuel (form ++ rest))
  | _, way => [way]

def begin : Way := ["create", .phrase .creation, .close]

/-- The ways after a token. A word stands for a name only if nothing goes on with it as a word. -/
def after (token : Token) (ways : List Way) : List Way :=
  let opening := ways.flatMap (fun way => opened (20 * (way.length + 1)) way)
  let taking (admits : Symbol → Bool) : List Way :=
    opening.filterMap (fun way =>
      match way with
      | symbol :: rest => if admits symbol then some rest else none
      | [] => none)
  let next :=
    match taking (fun symbol => symbol == .on && symbol.admits token),
      taking (Symbol.admits token) with
    | [], [] => if token.isOneOf Phrase.yielding then
        taking (fun symbol => symbol == Symbol.identifier) else []
    | [], next => next
    | next, _ => next
  next.eraseDups

/-- The first thing that is wrong with tokens, if they are to go on in some ways, and how many
tokens come before it. What comes after the end does not matter. -/
def fault? (ways : List Way) (place : Nat) : List Token → Option (Nat × DeclarationFault)
  | [] => some (place, .incomplete)
  | token :: rest =>
      if token.kind = .illegal then some (place, .illegal token.raw)
      else
        match after token ways with
        | [] => some (place, if token = Token.stop then .incomplete else .misplaced token.raw)
        | next => if next.contains [] then none else fault? next (place + 1) rest

end Way
end CodeAudit
