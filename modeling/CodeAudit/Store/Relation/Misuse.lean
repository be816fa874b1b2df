import CodeAudit.Store.Relation.Complaint

/-!
What is found wrong with a query only where it is worked out: values that stand side by side where
one is expected, collations that nobody knows, functions that sum up rows of a query that does not,
and queries that go on from their rows in a way that cannot be. What a query looks through comes
first, then its order, its conditions, and its results.
-/
namespace CodeAudit

namespace Expr

/-- Why the first cells that a function is called with cannot be compared. -/
def operandFault? (s : Setting) (function : Text) (distinct : Bool) (arguments : Exprs) :
    Option EngineFault :=
  let sums := Function.sumsUp function arguments.toList.length
  if Function.compares function || (distinct && sums) then
    (arguments.collation? s).bind Collation.fault? else none

/-- Why values that stand side by side cannot be compared. -/
def pairFault? (a b : List Trait) : Option EngineFault :=
  (a.zip b).findSome? (fun (a, b) => (a.collations b).fault?)

def sumFault? (s : Setting) (function : Text) (distinct : Bool) (arguments : Exprs)
    (filter : Expr) :
    Option EngineFault :=
  if Function.sumsUp function arguments.toList.length then
    if (s.scopes[arguments.level s filter]?.bind Scope.group).isNone then
      some (.misplacedSum function true)
    else if distinct && arguments.toList.length ≠ 1 then some .distinctOperands
    else none
  else none

/-- What is wrong with the number of values where one is expected. -/
def widthFault? (s : Setting) : Expr → Option EngineFault
  | row _ => some .misplacedRow
  | first query =>
      let width := (query.heading s).length
      if width = 1 then none else some (.resultCount width 1)
  | _ => none

end Expr

namespace Query

def resultsFault? (heading : Heading) : Option EngineFault :=
  heading.collations.findSome? Collation.fault?

def sortingsFault? (sortings : List Sorting) : Option EngineFault :=
  sortings.findSome? (fun sorting => sorting.collation.fault?)

def sumsUp (s : Setting) : Query → Bool
  | select _ results sources _ groups _ _ _ _ _ => !groups.isEmpty ||
      results.sumUp (s.within (sources.foci s []))
  | _ => false

def looksAround : Query → Bool
  | select _ results _ _ _ _ sort _ _ _ => !results.overs.isEmpty || !sort.overs.isEmpty
  | _ => false

def stepsSumUp (s : Setting) : Query → Bool
  | combine _ a b _ _ _ _ => a.stepsSumUp s || b.sumsUp s
  | query => query.sumsUp s

end Query

namespace Sources

/-- A view answers another number of results than it has names for them. -/
def misnamed? (s : Setting) : Sources → Option EngineFault
  | nil => none
  | cons (.query query heads) _ _ _ tail =>
      let count := (query.heading s).length
      if !heads.isView || heads.names.isEmpty || heads.names.length = count then tail.misnamed? s
      else some (.resultNames heads.owner count heads.names.length true)
  | cons _ _ _ _ tail => tail.misnamed? s

/-- A function that has rows is called with more than it takes. -/
def overfull? : Sources → Option EngineFault
  | nil => none
  | cons (.function name arguments) _ _ _ tail =>
      if arguments.toList.length ≤ Function.mostTableOperands then tail.overfull?
      else some (.tooManyOperands name Function.mostTableOperands)
  | cons _ _ _ _ tail => tail.overfull?

end Sources

mutual

/-- How an expression is misused that may or may not have several values. -/
def Expr.misuse? (s : Setting) (isWide : Bool) : Expr → Option EngineFault
  | .name owner name _ =>
      match s.resolve owner name with
      | [.result level named] =>
          if (s.scopes[level]?.bind Scope.group).isSome then none
          else named.sum.map (fun function => .misplacedSum function true)
      | _ => none
  | .unary _ a | .cast a _ | .collate a _ => a.misuse? s false
  | .binary operator a b =>
      let isComparison :=
        match operator with
        | .compare _ => true
        | _ => false
      ((a.misuse? s isComparison).or (b.misuse? s isComparison)).or
        (if isComparison then Expr.pairFault? (a.traits s) (b.traits s) else none)
  | .between a low high =>
      (((a.misuse? s true).or (low.misuse? s true)).or (high.misuse? s true)).or
        ((Expr.pairFault? (a.traits s) (low.traits s)).or
          (Expr.pairFault? (a.traits s) (high.traits s)))
  | .among a items =>
      ((a.misuse? s false).or (items.misuse? s)).or ((a.trait s).collation?.bind Collation.fault?)
  | .amongRows a query =>
      let wanted := (a.traits s).length
      let found := (query.heading s).length
      ((if found = wanted then none else some (.resultCount found wanted)).or (query.misuse? s)).or
        ((Expr.pairFault? (a.traits s) ((query.heading s).map Prod.snd)).or (a.misuse? s true))
  | .choose condition yes no =>
      ((condition.misuse? s false).or (yes.misuse? s false)).or (no.misuse? s false)
  | .call function distinct arguments filter =>
      (Expr.sumFault? s function distinct arguments filter).or
        (((arguments.misuse? s).or (filter.misuse? s false)).or
          (Expr.operandFault? s function distinct arguments))
  | .over function arguments filter window =>
      ((window.misuse? s).or (arguments.misuse? s)).or
        ((filter.misuse? s false).or (Expr.operandFault? s function false arguments))
  | .exists query => query.misuse? s
  | .first query => (if isWide then none else Expr.widthFault? s (.first query)).or
      (query.misuse? s)
  | .row items => if isWide then items.misuse? s else some .misplacedRow
  | _ => none

def Window.misuse? (s : Setting) : Window → Option EngineFault
  | .told _ partition sort _ _ _ _ =>
      ((partition.misuse? s).or (sort.misuse? s)).or
        ((Query.resultsFault? (partition.heading s)).or (Query.resultsFault? (sort.heading s)))
  | _ => none

/-- How one of some expressions is misused that have one value each. -/
def Exprs.misuse? (s : Setting) : Exprs → Option EngineFault
  | .nil => none
  | .cons _ e es => (e.misuse? s false).or (es.misuse? s)

def Query.misuse? (s : Setting) : Query → Option EngineFault
  | .select selection results sources condition groups having sort orders limit offset =>
      let inner := s.within (sources.foci s [])
      let summing := !groups.isEmpty || results.sumUp inner
      let named := inner.naming (results.namedIn inner)
      let settled := if summing then named.mapScope (fun scope => { scope with group := some [] })
        else named
      let heading := results.heading inner
      let own (e : Expr) : Option Collation := (e.trait named).collation?
      let names := results.givenNames inner
      let sortings := Query.sortings heading (Query.placeOf? names) own sort.toList orders
      let groupings := Query.sortings heading Expr.place? own groups.toList
        (groups.toList.map (fun _ => {}))
      (((sources.misnamed? s).or (sources.misuse? s)).or
        (((Query.sortingsFault? sortings).or (limit.misuse? s.outermost false)).or
          ((offset.misuse? s.outermost false).or
            (if selection = .distinct then Query.resultsFault? heading else none)))) |>.or
      (((sources.overfull?.or (sources.operandsMisuse? named)).or
        ((condition.misuse? named false).or (sources.onMisuse? named))).or
          (((Query.sortingsFault? groupings).or (groups.misuse? named)).or
            (((results.misuse? settled).or (having.misuse? settled false)).or
              (sort.keysMisuse? settled names))))
  | .combine combination a b sort orders limit offset =>
      let heading := (a.compared s).collated (b.compared s)
      let each := Query.toldOfEach s a ++ Query.toldOfEach s b
      let sortings := Query.sortings heading (Query.commonPlace? each) (fun _ => none)
        sort.toList orders
      let distinction := if combination = .unionAll then none else Query.resultsFault? heading
      (((limit.misuse? s.outermost false).or (offset.misuse? s.outermost false)).or
        (Query.sortingsFault? sortings)).or
        (((a.misuse? s).or (b.misuse? s)).or distinction)
  | .recurse each heads start step sort orders limit offset =>
      let inner := { s with itself := some (heads.relation (start.heading s)) }
      let heading := (start.compared s).collated (step.compared inner)
      let told := Query.toldOfEach s start ++ Query.toldOfEach inner step
      let sortings := Query.sortings heading (Query.commonPlace? told) (fun _ => none)
        sort.toList orders
      (((if step.last.looksAround then some EngineFault.recursiveWindows else none).or
        (limit.misuse? s.outermost false)).or
          ((offset.misuse? s.outermost false).or (Query.sortingsFault? sortings))).or
      (((if step.stepsSumUp inner then some .recursiveSums else none).or (start.misuse? s)).or
        ((step.misuse? inner).or (if each then Query.resultsFault? heading else none)))

def Source.misuse? (s : Setting) : Source → Option EngineFault
  | .query query heads => query.misuse? (if heads.isView then s.bare else s)
  | .nested sources =>
      ((sources.misnamed? s).or (sources.misuse? s)).or
        (sources.onMisuse? (s.within (sources.foci s [])))
  | _ => none

def Sources.misuse? (s : Setting) : Sources → Option EngineFault
  | .nil => none
  | .cons source _ _ _ tail => (source.misuse? s).or (tail.misuse? s)

def Sources.onMisuse? (s : Setting) : Sources → Option EngineFault
  | .nil => none
  | .cons _ _ _ on tail => (on.misuse? s false).or (tail.onMisuse? s)

def Sources.operandsMisuse? (s : Setting) : Sources → Option EngineFault
  | .nil => none
  | .cons source _ _ _ tail =>
      match source with
      | .function _ arguments => (arguments.misuse? s).or (tail.operandsMisuse? s)
      | _ => tail.operandsMisuse? s

def Exprs.keysMisuse? (s : Setting) (names : List Text) : Exprs → Option EngineFault
  | .nil => none
  | .cons _ e es =>
      (if (Query.placeOf? names e).isSome then none else e.misuse? s false).or
        (es.keysMisuse? s names)

end
end CodeAudit
