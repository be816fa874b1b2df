import CodeAudit.Store.Relation.Expr

/-!
Queries that have names. Where such a name is looked through, the query takes its place. A query
among others may look through all of them; one that comes back to itself is refused, unless it
begins with other rows and goes on with steps that look through it once.
-/
namespace CodeAudit

/-- A query with a name, and names for its results if they are told. -/
structure View where
  name : Text
  columns : List Text := []
  query : Query
deriving DecidableEq

abbrev Replacement := TableName → Option Source

mutual

def Expr.replace (f : Replacement) : Expr → Expr
  | .unary operator a => .unary operator (a.replace f)
  | .binary operator a b => .binary operator (a.replace f) (b.replace f)
  | .collate a collation => .collate (a.replace f) collation
  | .cast a affinity => .cast (a.replace f) affinity
  | .between a low high => .between (a.replace f) (low.replace f) (high.replace f)
  | .among a items => .among (a.replace f) (items.replace f)
  | .amongRows a query => .amongRows (a.replace f) (query.replace f)
  | .choose condition yes no => .choose (condition.replace f) (yes.replace f) (no.replace f)
  | .call function distinct arguments filter =>
      .call function distinct (arguments.replace f) (filter.replace f)
  | .over function arguments filter window =>
      .over function (arguments.replace f) (filter.replace f) (window.replace f)
  | .exists query => .exists (query.replace f)
  | .first query => .first (query.replace f)
  | .row items => .row (items.replace f)
  | e => e

def Window.replace (f : Replacement) : Window → Window
  | .told base partition sort orders frame low high =>
      .told base (partition.replace f) (sort.replace f) orders frame low high
  | window => window

def Exprs.replace (f : Replacement) : Exprs → Exprs
  | .nil => .nil
  | .cons title e es => .cons title (e.replace f) (es.replace f)

def Query.replace (f : Replacement) : Query → Query
  | .select selection results sources condition groups having sort orders limit offset =>
      .select selection (results.replace f) (sources.replace f) (condition.replace f)
        (groups.replace f)
        (having.replace f) (sort.replace f) orders (limit.replace f) (offset.replace f)
  | .combine combination a b sort orders limit offset =>
      .combine combination (a.replace f) (b.replace f) (sort.replace f) orders (limit.replace f)
        (offset.replace f)
  | .recurse each heads start step sort orders limit offset =>
      .recurse each heads (start.replace f) (step.replace f) (sort.replace f) orders
        (limit.replace f)
        (offset.replace f)

def Source.replace (f : Replacement) : Source → Source
  | .table name => (f name).getD (.table name)
  | .query query heads => .query (query.replace f) heads
  | .function name arguments => .function name (arguments.replace f)
  | .nested sources => .nested (sources.replace f)
  | source => source

def Sources.replace (f : Replacement) : Sources → Sources
  | .nil => .nil
  | .cons source known join on tail =>
      .cons (source.replace f) known join (on.replace f) (tail.replace f)

end

namespace View

def heads (view : View) (isView : Bool) : Heads :=
  { owner := view.name, isView, names := view.columns }

def isNamed (name : Text) (view : View) : Bool := view.name.lower == name.lower

/-! Queries before another one. -/

def isReference (name : Text) : Source → Bool
  | .table table => table.database.isNone && table.name.lower == name.lower
  | _ => false

def references (name : Text) : Sources → Nat
  | .nil => 0
  | .cons source _ _ _ tail => (if isReference name source then 1 else 0) + references name tail

/-- The sources that are a query by its name are the query as it goes on. -/
def withItself (view : View) : Sources → Sources
  | .nil => .nil
  | .cons source known join on tail =>
      .cons (if isReference view.name source then .itself (view.heads false) else source)
        known join on
        (withItself view tail)

def step? (view : View) : Query → Option (Except EngineFault Query)
  | .select selection results sources condition groups having sort orders limit offset =>
      match references view.name sources with
      | 0 => none
      | 1 =>
          some (.ok (.select selection results (withItself view sources) condition groups having
            sort orders limit
            offset))
      | _ => some (.error (.repeatedReference view.name))
  | _ => none

/-- The steps at the end of queries that are put together in one way, and those that they begin
with. -/
def stepsOf (view : View) (combination : Combination) :
    Query → Except EngineFault (Query × List Query)
  | query@(.combine other a b .nil _ _ _) =>
      if other = combination then
        match step? view b with
        | some (.ok step) => do
            let (start, steps) ← stepsOf view combination a
            return (start, steps ++ [step])
        | some (.error cause) => .error cause
        | none => .ok (query, [])
      else .ok (query, [])
  | query => .ok (query, [])

def stepped : List Query → Query
  | [] => .ofValues .nil
  | step :: steps => steps.foldl (Query.ofBoth .unionAll) step

def recursion? (view : View) : Except EngineFault (Option (Bool × Query × Query)) :=
  match view.query with
  | .combine combination a b _ _ _ _ =>
      if combination = .union ∨ combination = .unionAll then
        match step? view b with
        | some (.ok step) => do
            let (start, steps) ← stepsOf view combination a
            return some (combination == .union, start, stepped (steps ++ [step]))
        | some (.error cause) => .error cause
        | none => .ok none
      else .ok none
  | _ => .ok none

/-- What a name stands for among some queries, each of which may look through all of them. Each
round opens one more of them. -/
def source (views : List View) : Nat → List (Text × EngineFault) → Replacement
  | 0, _, _ => none
  | fuel + 1, opened, table =>
      if table.database.isSome then none
      else
        match opened.find? (fun (name, _) => name.lower == table.name.lower),
          views.find? (isNamed table.name) with
        | some (_, cause), _ => some (.refused cause)
        | none, none => none
        | none, some view =>
            let within (cause : Text → EngineFault) : Replacement :=
              source views fuel ((view.name, cause view.name) :: opened)
            some (
              match view.query, view.recursion? with
              | _, .error cause => .refused cause
              | .combine _ _ _ sort orders limit offset, .ok (some (each, start, step)) =>
                  .query
                    (.recurse each (view.heads false) (start.replace (within .circular))
                      (step.replace (within .furtherReference)) sort orders limit offset)
                    (view.heads false)
              | query, _ => .query (query.replace (within .circular)) (view.heads false))

/-- A query after some others that it may look through. -/
def before (views : List View) (query : Query) : Query :=
  query.replace (source views (views.length + 1) [])

/-! Views of a database. -/

/-- What a name stands for among the views of a database, apart from those that are open. -/
def stored (views : List View) : Nat → List Text → Replacement
  | 0, _, _ => none
  | fuel + 1, opened, table =>
      (views.find? (isNamed table.name)).map (fun view =>
        if opened.contains view.name.lower then .refused (.circularView view.name)
        else .query (view.query.replace (stored views fuel (view.name.lower :: opened)))
          (view.heads true))

def expansion (views : List View) : Replacement := stored views (views.length + 1) []

end View

namespace Amendment

def replace (f : Replacement) (amendment : Amendment) : Amendment :=
  { amendment with
    values :=
      amendment.values.map (fun values => values.map (fun (names, e) => (names, e.replace f)))
    condition := amendment.condition.replace f }

end Amendment

namespace Step

def replace (f : Replacement) : Step → Step
  | insert resolution table columns rows amendments =>
      insert resolution table columns (rows.replace f) (amendments.map (Amendment.replace f))
  | change resolution table values sources condition =>
      change resolution table (values.map (fun (names, e) => (names, e.replace f)))
        (sources.replace f)
        (condition.replace f)
  | drop table condition => drop table (condition.replace f)
  | look query => look (query.replace f)

end Step
end CodeAudit
