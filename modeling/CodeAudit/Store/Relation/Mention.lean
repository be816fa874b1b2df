import CodeAudit.Store.Relation.Comparison
import CodeAudit.Store.Relation.Window

/-!
What expressions mention: names, databases, and functions that sum up rows. Such a function belongs
to the innermost query that its operands mention a column of, or else to the one that it stands in.
-/
namespace CodeAudit

mutual

def Expr.mentions : Expr → List Text
  | .name _ name _ => [name.lower]
  | .unary _ a | .cast a _ | .collate a _ => a.mentions
  | .amongRows a query => a.mentions ++ query.mentions
  | .binary _ a b => a.mentions ++ b.mentions
  | .between a low high => a.mentions ++ low.mentions ++ high.mentions
  | .among a items => a.mentions ++ items.mentions
  | .choose condition yes no => condition.mentions ++ yes.mentions ++ no.mentions
  | .call _ _ arguments filter => arguments.mentions ++ filter.mentions
  | .over _ arguments filter window => arguments.mentions ++ filter.mentions ++ window.mentions
  | .exists query | .first query => query.mentions
  | .row items => items.mentions
  | _ => []

def Window.mentions : Window → List Text
  | .told _ partition sort _ _ _ _ => partition.mentions ++ sort.mentions
  | _ => []

def Exprs.mentions : Exprs → List Text
  | .nil => []
  | .cons _ e es => e.mentions ++ es.mentions

def Query.mentions : Query → List Text
  | .select _ results sources condition groups having sort _ _ _ =>
      results.mentions ++ sources.mentions ++ condition.mentions ++ groups.mentions ++
        having.mentions ++
        sort.mentions
  | .combine _ a b _ _ _ _ => a.mentions ++ b.mentions
  | .recurse _ _ start step _ _ _ _ => start.mentions ++ step.mentions

def Source.mentions : Source → List Text
  | .query query _ => query.mentions
  | .function _ arguments => arguments.mentions
  | .nested sources => sources.mentions
  | _ => []

def Sources.mentions : Sources → List Text
  | .nil => []
  | .cons source _ _ on tail => source.mentions ++ on.mentions ++ tail.mentions

end

mutual

/-- The databases that an expression looks into, as far as they are told. -/
def Expr.databases : Expr → List Text
  | .unary _ a | .cast a _ | .collate a _ => a.databases
  | .amongRows a query => a.databases ++ query.databases
  | .binary _ a b => a.databases ++ b.databases
  | .between a low high => a.databases ++ low.databases ++ high.databases
  | .among a items => a.databases ++ items.databases
  | .choose condition yes no => condition.databases ++ yes.databases ++ no.databases
  | .call _ _ arguments filter => arguments.databases ++ filter.databases
  | .over _ arguments filter window => arguments.databases ++ filter.databases ++ window.databases
  | .exists query | .first query => query.databases
  | .row items => items.databases
  | _ => []

def Window.databases : Window → List Text
  | .told _ partition sort _ _ _ _ => partition.databases ++ sort.databases
  | _ => []

def Exprs.databases : Exprs → List Text
  | .nil => []
  | .cons _ e es => e.databases ++ es.databases

def Query.databases : Query → List Text
  | .select _ results sources condition groups having sort _ limit offset =>
      results.databases ++ sources.databases ++ condition.databases ++ groups.databases ++
        having.databases ++
        sort.databases ++ limit.databases ++ offset.databases
  | .combine _ a b sort _ limit offset =>
      b.databases ++ sort.databases ++ limit.databases ++ offset.databases ++ a.databases
  | .recurse _ _ start step sort _ limit offset =>
      step.databases ++ sort.databases ++ limit.databases ++ offset.databases ++ start.databases

def Source.databases : Source → List Text
  | .table table => table.database.toList
  | .query query _ => query.databases
  | .function _ arguments => arguments.databases
  | .nested sources => sources.databases
  | _ => []

def Sources.databases : Sources → List Text
  | .nil => []
  | .cons source _ _ on tail => source.databases ++ on.databases ++ tail.databases

end

def Step.databases : Step → List Text
  | .insert _ _ _ rows amendments =>
      rows.databases ++ amendments.flatMap (fun amendment =>
        amendment.parts.flatMap (fun (part, _) => part.databases) ++
          (amendment.only.elim [] Expr.databases) ++
          (amendment.values.getD []).flatMap (fun (_, e) => e.databases) ++
            amendment.condition.databases)
  | .change _ _ values sources condition =>
      condition.databases ++ values.flatMap (fun (_, e) => e.databases) ++ sources.databases
  | .drop _ condition => condition.databases
  | .look query => query.databases

mutual

/-- How many queries around an expression its columns belong to, apart from queries inside of it. -/
def Expr.levels (s : Setting) (depth : Nat) : Expr → List Nat
  | .name owner name _ =>
      match (s.resolve owner name).head? with
      | some (.column level binding) => if binding.focus.apart || level < depth then []
          else [level - depth]
      | some (.result level _) => if level < depth then [] else [level - depth]
      | none => []
  | .unary _ a | .cast a _ | .collate a _ => a.levels s depth
  | .amongRows a query => a.levels s depth ++ query.levels s depth
  | .binary _ a b => a.levels s depth ++ b.levels s depth
  | .between a low high => a.levels s depth ++ low.levels s depth ++ high.levels s depth
  | .among a items => a.levels s depth ++ items.levels s depth
  | .choose condition yes no => condition.levels s depth ++ yes.levels s depth ++ no.levels s depth
  | .call _ _ arguments filter => arguments.levels s depth ++ filter.levels s depth
  | .over _ arguments filter window =>
      arguments.levels s depth ++ filter.levels s depth ++ window.levels s depth
  | .exists query | .first query => query.levels s depth
  | .row items => items.levels s depth
  | _ => []

def Window.levels (s : Setting) (depth : Nat) : Window → List Nat
  | .told _ partition sort _ _ _ _ => partition.levels s depth ++ sort.levels s depth
  | _ => []

def Exprs.levels (s : Setting) (depth : Nat) : Exprs → List Nat
  | .nil => []
  | .cons _ e es => e.levels s depth ++ es.levels s depth

def Query.levels (s : Setting) (depth : Nat) : Query → List Nat
  | .select _ results sources condition groups having sort _ _ _ =>
      let inner := s.within (sources.foci s [])
      results.levels inner (depth + 1) ++ sources.levels s inner depth ++ condition.levels inner
        (depth + 1) ++
        groups.levels inner (depth + 1) ++ having.levels inner (depth + 1) ++ sort.levels inner
          (depth + 1)
  | .combine _ a b _ _ _ _ => a.levels s depth ++ b.levels s depth
  | .recurse _ _ start step _ _ _ _ => start.levels s depth ++ step.levels s depth

def Source.levels (s inner : Setting) (depth : Nat) : Source → List Nat
  | .query query _ => query.levels s depth
  | .function _ arguments => arguments.levels inner (depth + 1)
  | .nested sources => sources.levels s inner depth
  | _ => []

def Sources.levels (s inner : Setting) (depth : Nat) : Sources → List Nat
  | .nil => []
  | .cons source _ _ on tail =>
      source.levels s inner depth ++ on.levels inner (depth + 1) ++ tail.levels s inner depth

end

namespace Exprs

/-- How many queries further out the rows are that a function sums up, by its operands and by the
condition for them. -/
def level (s : Setting) (arguments : Exprs) (filter : Expr) : Nat :=
  ((arguments.levels s 0 ++ filter.levels s 0).min?).getD 0

end Exprs

mutual

/-- The functions in an expression that sum up rows of a query some levels further out. -/
def Expr.sums (s : Setting) (depth : Nat) : Expr → List Expr
  | .unary _ a | .cast a _ | .collate a _ => a.sums s depth
  | .amongRows a query => a.sums s depth ++ query.sums s depth
  | .binary _ a b => a.sums s depth ++ b.sums s depth
  | .between a low high => a.sums s depth ++ low.sums s depth ++ high.sums s depth
  | .among a items => a.sums s depth ++ items.sums s depth
  | .choose condition yes no => condition.sums s depth ++ yes.sums s depth ++ no.sums s depth
  | e@(.call function _ arguments filter) =>
      if Function.sumsUp function arguments.toList.length &&
        arguments.level s filter == depth then [e]
      else arguments.sums s depth ++ filter.sums s depth
  | .over _ arguments filter window => arguments.sums s depth ++ filter.sums s depth ++
      window.sums s depth
  | .exists query | .first query => query.sums s depth
  | .row items => items.sums s depth
  | _ => []

def Window.sums (s : Setting) (depth : Nat) : Window → List Expr
  | .told _ partition sort _ _ _ _ => partition.sums s depth ++ sort.sums s depth
  | _ => []

def Exprs.sums (s : Setting) (depth : Nat) : Exprs → List Expr
  | .nil => []
  | .cons _ e es => e.sums s depth ++ es.sums s depth

def Query.sums (s : Setting) (depth : Nat) : Query → List Expr
  | .select _ results sources condition groups having sort _ _ _ =>
      let inner := s.within (sources.foci s [])
      results.sums inner (depth + 1) ++ sources.sums s inner depth ++ condition.sums inner
        (depth + 1) ++
        groups.sums inner (depth + 1) ++ having.sums inner (depth + 1) ++ sort.sums inner
          (depth + 1)
  | .combine _ a b _ _ _ _ => a.sums s depth ++ b.sums s depth
  | .recurse _ _ start step _ _ _ _ => start.sums s depth ++ step.sums s depth

def Source.sums (s inner : Setting) (depth : Nat) : Source → List Expr
  | .query query _ => query.sums s depth
  | .function _ arguments => arguments.sums inner (depth + 1)
  | .nested sources => sources.sums s inner depth
  | _ => []

def Sources.sums (s inner : Setting) (depth : Nat) : Sources → List Expr
  | .nil => []
  | .cons source _ _ on tail =>
      source.sums s inner depth ++ on.sums inner (depth + 1) ++ tail.sums s inner depth

end

namespace Expr

/-- The first function that sums up rows of the query that the expression stands in. -/
def sum? (s : Setting) (e : Expr) : Option Text :=
  match e.sums s 0 with
  | .call function _ _ _ :: _ => some function
  | _ => none

/-- The expression sums up rows of the query that it stands in. -/
def sumsUp (s : Setting) (e : Expr) : Bool := !(e.sums s 0).isEmpty

end Expr

namespace Exprs

def sumUp (s : Setting) (es : Exprs) : Bool := !(es.sums s 0).isEmpty

/-- The expressions sum up rows in a way that may hang on their order. -/
def mindOrder (s : Setting) (es : Exprs) : Bool :=
  (es.sums s 0).any (fun e =>
    match e with
    | .call function _ _ _ => !(["count", "max", "min"].any (Function.isNamed function))
    | _ => false)

/-- The results that have names, as far as they are known without rows. -/
def namedIn (s : Setting) : Exprs → List Named
  | nil => []
  | cons title e es =>
      let own : List Named := (nameOf title).toList.map (fun name =>
        { name, trait := e.trait s, sum := e.sum? s, looksAround := !e.overs.isEmpty })
      own ++ es.namedIn s

end Exprs
end CodeAudit
