import CodeAudit.Store.Relation.Evaluation

/-!
What is wrong with a query before anything is done. Tables that are not there, and columns that
tables do not share, are looked for all over the query first; then columns that are not there or
that may be several ones, and functions that are not there or that may not stand where they do. An
expression is looked into from left to right. What is wrong with a function does not end that, so it
gives way to what is found wrong with its operands or further right.
-/
namespace CodeAudit

def writtenName (owner : Option Owner) (name : Text) : Text :=
  match owner with
  | some owner => ((owner.database.map (· ++ [46])).getD []) ++ owner.name ++ [46] ++ name
  | none => name

/-- What has been found wrong, and whether nothing more is looked at. -/
structure Verdict where
  fault : Option EngineFault := none
  isFinal : Bool := false
deriving DecidableEq, Repr

namespace Verdict

/-- Looks at something more, unless that is over. -/
def andThen (verdict : Verdict) (next : Option EngineFault → Verdict) : Verdict :=
  if verdict.isFinal then verdict else next verdict.fault

/-- What ends looking, if anything has been found wrong. -/
def ofFault (fault : Option EngineFault) : Verdict := { fault, isFinal := fault.isSome }

/-- Goes on whatever has been found. -/
def going (verdict : Verdict) : Verdict := { verdict with isFinal := false }

end Verdict

/-- Which functions may stand somewhere. -/
structure Leave where
  sums : Bool := false
  windows : Bool := false
deriving DecidableEq, Repr

namespace Leave

def row : Leave := {}

def all : Leave := { sums := true, windows := true }

end Leave

namespace Function

/-- What is wrong with a number between nothing and one that a function is called with. -/
def constantFault? (name : Text) : List Expr → Option EngineFault
  | [_, chance] =>
      let isChance :=
        match chance with
        | .value (.real value) => !value.isNegative &&
            value.compareTo (.ofQuotient false 1 1) != .gt
        | _ => false
      if isNamed name "likelihood" && !isChance then some (.notConstant name) else none
  | _ => none

/-- What is wrong with calling a function where some may stand. -/
def callFault? (name : Text) (count : Nat) (isFiltered : Bool) (leave : Leave) :
    Option EngineFault :=
  if sumsUp name count then if leave.sums then none else some (.misplacedSum name false)
  else if looksAround name count then some (.misplacedWindow name)
  else (complaint? name count).or (if isFiltered then some (.filtered name) else none)

/-- What is wrong with a function where some may stand, whatever its operands are. -/
def ownFault? (name : Text) (arguments : List Expr) (isFiltered : Bool) (leave : Leave) :
    Option EngineFault :=
  (callFault? name arguments.length isFiltered leave).or
    ((if isUnsafe name then some (.unsafeUse name) else none).or (constantFault? name arguments))

/-- What is wrong with a function in front of a window. -/
def windowFault? (name : Text) (count : Nat) (leave : Leave) : Option EngineFault :=
  let isAround := sumsUp name count || looksAround name count
  let isScalar := !(sumCounts ++ windowCounts).any (fun (known, _, _) => isNamed name known)
  if (complaint? name count).isNone && !isAround ||
    isScalar && complaint? name count = some (.operandCount name) then
    some (.notOverWindow name)
  else if isAround && !(leave.sums && leave.windows) then some (.misplacedWindow name)
  else complaint? name count

end Function

namespace Window

def fault? (function : Text) (isFiltered : Bool) : Window → Option EngineFault
  | refused cause => some cause
  | named name => some (.noWindow name)
  | told _ _ sort _ frame _ _ =>
      let isDistant :=
        [frame.low, frame.high].any (fun edge => edge == .preceding || edge == .following)
      if frame.stride = .range && isDistant && sort.toList.length ≠ 1 then some .windowKeys
      else if isFiltered && Function.windowCounts.any
        (fun (known, _, _) => Function.isNamed function known) then
        some .filteredWindow
      else none

end Window

namespace Named

/-- What is wrong with a result that stands for itself by its name. -/
def fault? (leave : Leave) (level : Nat) (named : Named) : Option EngineFault :=
  if named.sum.isSome && !leave.sums then some (.misplacedResult named.name)
  else if named.looksAround && (!leave.windows || 0 < level) then
    some (.misplacedWindowResult named.name)
  else none

end Named

namespace Exprs

/-- The place of a key that stands for a result that is not there. -/
def beyond? (purpose : String) (count : Nat) (e : Expr) (place : Nat) : Option EngineFault :=
  match e.count? with
  | some n => if 1 ≤ n ∧ n ≤ count then none else some (.noResult (place + 1) purpose count)
  | none => none

/-- A key stands for a result that sums up rows, by its place or by its name if that is no
column. -/
def groupSums (s : Setting) (results keys : Exprs) (foci : List Focus) : Bool :=
  let summing := results.toNamed.filterMap (fun (name, e) => if e.sumsUp s then name else none)
  let names := Query.reachable foci summing (keys.toList.flatMap Expr.mentions)
  keys.sumUp s || !names.isEmpty ||
    keys.toList.any (fun key => (key.place?.bind (fun place => results.toList[place]?)).any
      (Expr.sumsUp s))

end Exprs

namespace Query

def isOfValues : Query → Bool
  | select .values _ _ _ _ _ _ _ _ _ => true
  | _ => false

def last : Query → Query
  | combine _ _ b _ _ _ _ => b
  | recurse _ _ _ step _ _ _ _ => step
  | query => query

/-- Queries are put together that answer different numbers of results. -/
def unequal? (s : Setting) (combination : Combination) (a b : Query) : Option EngineFault :=
  if (a.heading s).length = (b.heading s).length then none
  else if a.isOfValues && b.isOfValues then some .unequalRows
  else some (.unequalResults combination.spelling)

/-- A key of queries that are put together which is none of their results. -/
def unknownKey? (results : List (List (Text × Expr))) (count : Nat) (sort : Exprs) :
    Option EngineFault :=
  sort.toList.zipIdx.findSome? (fun (e, place) =>
    (Exprs.beyond? "ORDER" count e place).or
      (if (commonPlace? results e).isSome then none else some (.unknownResult (place + 1))))

end Query

namespace Heads

/-- What a query that goes on looks through as itself. -/
def relation (heads : Heads) (heading : Heading) : Relation :=
  .ofHeading heads.owner heads.names heading

end Heads

namespace Sources

/-- Why columns of sources cannot be shared, from some sources on. -/
def unshared? (s : Setting) (hasFurther : Bool) (before : List Focus) : Sources → Option EngineFault
  | nil => none
  | cons source known join on tail =>
      let own := source.foci s known
      let has (foci : List Focus) (name : Text) : Bool :=
        foci.any (fun focus => (focus.relation.placeOf? name).isSome)
      let isOpen (name : Text) (focus : Focus) : Bool :=
        (focus.relation.placeOf? name).isSome && !focus.hidden.contains name.lower
      let fault :=
        if join.natural && (!join.shared.isEmpty || on != .always) then
          some EngineFault.conditionBesideNatural
        else
          join.shared.findSome? (fun name =>
            if !has own name || !has before name then some (.notShared name)
            else if hasFurther && 1 < (before.filter (isOpen name)).length then
              some (.sharedTwice name)
            else none)
      fault.or (tail.unshared? s hasFurther (before ++ join.besides before own))

/-- Rows of one of the sources stay without a partner further left. -/
def keepFurther : Sources → Bool
  | nil => false
  | cons _ _ join _ tail => join.keepsRight || tail.keepFurther

end Sources

namespace Exprs

/-- All columns are asked for of something that is not looked through. -/
def unfounded? (foci : List Focus) : Exprs → Option EngineFault
  | nil => none
  | cons _ e es =>
      match e with
      | .star none => if foci.isEmpty then some .noSources else es.unfounded? foci
      | .star (some owner) =>
          if foci.any (fun focus => focus.name.lower == owner.lower) then es.unfounded? foci
          else some (.noSource owner)
      | _ => es.unfounded? foci

end Exprs

namespace TableName

def absence? (s : Setting) (table : TableName) : Option EngineFault :=
  match s.table? table.name with
  | some relation =>
      match table.index with
      | some index =>
          if relation.indexes.any (fun other => other.name.lower == index.lower) then none
          else some (.noIndex index)
      | none => none
  | none => s.absence? table.name

end TableName

mutual

/-- What is not there of what an expression looks through. -/
def Expr.absence? (s : Setting) : Expr → Option EngineFault
  | .unary _ a | .cast a _ | .collate a _ => a.absence? s
  | .binary _ a b => (a.absence? s).or (b.absence? s)
  | .between a low high => ((a.absence? s).or (low.absence? s)).or (high.absence? s)
  | .among a items => (a.absence? s).or (items.absence? s)
  | .amongRows a query => (a.absence? s).or (query.absence? s)
  | .choose condition yes no => ((condition.absence? s).or (yes.absence? s)).or (no.absence? s)
  | .call _ _ arguments filter => (arguments.absence? s).or (filter.absence? s)
  | .over _ arguments filter window =>
      ((arguments.absence? s).or (window.absence? s)).or (filter.absence? s)
  | .exists query | .first query => query.absence? s
  | .row items => items.absence? s
  | _ => none

def Window.absence? (s : Setting) : Window → Option EngineFault
  | .told _ partition sort _ _ _ _ => (partition.absence? s).or (sort.absence? s)
  | _ => none

def Exprs.absence? (s : Setting) : Exprs → Option EngineFault
  | .nil => none
  | .cons _ e es => (e.absence? s).or (es.absence? s)

/-- What is not there of what a query looks through. Of queries that are put together the last one
comes first. -/
def Query.absence? (s : Setting) : Query → Option EngineFault
  | .select _ results sources condition groups having sort _ limit offset =>
      ((((sources.absence? s).or (sources.unshared? s sources.keepFurther [])).or
        (results.unfounded? (sources.foci s []))).or
          (((results.absence? s).or (condition.absence? s)).or (sources.onAbsence? s))).or
        ((((groups.absence? s).or (having.absence? s)).or
          ((sort.absence? s).or (limit.absence? s))).or
            ((offset.absence? s).or (sources.operandsAbsence? s)))
  | .combine _ a b sort _ limit offset =>
      ((b.absence? s).or (sort.absence? s)).or
        (((limit.absence? s).or (offset.absence? s)).or (a.absence? s))
  | .recurse _ heads start step sort _ limit offset =>
      let count := (start.heading s).length
      let misnamed :=
        if heads.names.isEmpty ∨ heads.names.length = count then none
        else some (.resultNames heads.owner count heads.names.length false)
      let inner := { s with itself := some (heads.relation (start.heading s)) }
      ((start.absence? s).or misnamed).or
        (((step.absence? inner).or (sort.absence? s)).or
          ((limit.absence? s).or (offset.absence? s)))

/-- What is not there of a source. A view is looked into as a whole, and sees nothing around it. -/
def Source.absence? (s : Setting) : Source → Option EngineFault
  | .table table => table.absence? s
  | .query query heads =>
      let count := (query.heading s).length
      if heads.isView then
        let alone := { s.bare with itself := none }
        (query.absence? alone).or (query.complaint? alone)
      else if heads.names.isEmpty ∨ heads.names.length = count then query.absence? s
      else (query.absence? s).or (some (.resultNames heads.owner count heads.names.length false))
  | .function name _ =>
      if (Function.table? name).isSome then none
      else (s.absence? name).or (some (.notAFunction name))
  | .itself _ => none
  | .nested sources =>
      ((sources.absence? s).or (sources.unshared? s sources.keepFurther [])).or
        (sources.onAbsence? s)
  | .refused cause => some cause

def Sources.absence? (s : Setting) : Sources → Option EngineFault
  | .nil => none
  | .cons source _ _ _ tail => (source.absence? s).or (tail.absence? s)

/-- What is not there of what the conditions between sources look through. -/
def Sources.onAbsence? (s : Setting) : Sources → Option EngineFault
  | .nil => none
  | .cons _ _ _ on tail => (on.absence? s).or (tail.onAbsence? s)

/-- What is not there of what functions among sources are called with. -/
def Sources.operandsAbsence? (s : Setting) : Sources → Option EngineFault
  | .nil => none
  | .cons source _ _ _ tail =>
      match source with
      | .function _ arguments => (arguments.absence? s).or (tail.operandsAbsence? s)
      | _ => tail.operandsAbsence? s

/-- What is wrong with an expression after something else that may be wrong. -/
def Expr.judge (s : Setting) (leave : Leave) (before : Option EngineFault) : Expr → Verdict
  | .name owner name quoted =>
      match s.resolve owner name with
      | [] => if quoted then { fault := before }
          else .ofFault (some (.noColumn (writtenName owner name)))
      | [.column _ _] => { fault := before }
      | [.result level named] =>
          match named.fault? leave level with
          | some fault => .ofFault (some fault)
          | none => { fault := before }
      | _ => .ofFault (some (.ambiguous (writtenName owner name)))
  | .unary _ a | .cast a _ | .collate a _ =>
      (Verdict.ofFault before).andThen (fun fault => a.judge s leave fault)
  | .binary operator a b =>
      let isMisplaced :=
        match operator with
        | .compare _ => (a.traits s).length != (b.traits s).length
        | _ => false
      if isMisplaced then .ofFault (some .misplacedRow)
      else
        ((Verdict.ofFault before).andThen (fun fault => a.judge s leave fault)).andThen
          (fun fault => b.judge s leave fault)
  | .between a low high =>
      let width := (a.traits s).length
      if (low.traits s).length ≠ width ∨ (high.traits s).length ≠ width then
        .ofFault (some .misplacedRow)
      else
        (((Verdict.ofFault before).andThen (fun fault => a.judge s leave fault)).andThen
          (fun fault => low.judge s leave fault)).andThen (fun fault => high.judge s leave fault)
  | .among a items =>
      ((Verdict.ofFault before).andThen (fun fault => a.judge s leave fault)).andThen
        (fun fault => items.judge s leave fault)
  | .amongRows a query =>
      (Verdict.ofFault (((query.absence? s).or (query.complaint? s)).or before)).andThen
        (fun fault => a.judge s leave fault)
  | .choose condition yes no =>
      (((Verdict.ofFault before).andThen (fun fault => condition.judge s leave fault)).andThen
        (fun fault => yes.judge s leave fault)).andThen (fun fault => no.judge s leave fault)
  | .call function _ arguments filter =>
      let count := arguments.toList.length
      let own := Function.ownFault? function arguments.toList (filter != .always) leave
      let sums := Function.sumsUp function count && leave.sums
      let inner := if sums then Leave.row else leave
      let operands := (arguments.judge s inner (own.or before)).going
      (if sums then operands.andThen (fun fault => filter.judge s .row fault) else operands).going
  | .over function arguments filter window =>
      let count := arguments.toList.length
      let own := Function.windowFault? function count leave
      let isRight := (Function.sumsUp function count || Function.looksAround function count) &&
        own.isNone
      let inner := if isRight then { leave with windows := false } else leave
      let operands := (arguments.judge s inner (own.or before)).going
      if isRight then
        let laid :=
          operands.andThen (fun fault =>
            { fault := (window.fault? function (filter != .always)).or fault })
        ((laid.andThen (fun fault => window.judge s inner fault)).going.andThen
          (fun fault => filter.judge s inner fault)).going
      else operands
  | .exists query | .first query =>
      .ofFault (((query.absence? s).or (query.complaint? s)).or before)
  | .row items => (Verdict.ofFault before).andThen (fun fault => items.judge s leave fault)
  | _ => .ofFault before

/-- What is wrong with what a window puts rows apart and in order by. -/
def Window.judge (s : Setting) (leave : Leave) (before : Option EngineFault) : Window → Verdict
  | .told _ partition sort _ _ _ _ =>
      (partition.judge s leave before).going.andThen (fun fault => sort.judge s leave fault)
  | _ => { fault := before }

def Exprs.judge (s : Setting) (leave : Leave) (before : Option EngineFault) : Exprs → Verdict
  | .nil => { fault := before }
  | .cons _ e es => (e.judge s leave before).andThen (fun fault => es.judge s leave fault)

/-- What is wrong with the first one of some expressions with which something is wrong. -/
def Exprs.complaint? (s : Setting) (leave : Leave) : Exprs → Option EngineFault
  | .nil => none
  | .cons _ e es => (e.judge s leave none).fault.or (es.complaint? s leave)

/-- What is wrong with the keys of an order or of groups, of which those that stand for results by
their names are not looked into. -/
def Exprs.keysComplaint? (s : Setting) (purpose : String) (leave : Leave) (count : Nat)
    (names : List Text) (place : Nat) : Exprs → Option EngineFault
  | .nil => none
  | .cons _ e es =>
      let own :=
        if e.count?.isNone && (Query.placeOf? names e).isSome then none
        else (Exprs.beyond? purpose count e place).or (e.judge s leave none).fault
      own.or (es.keysComplaint? s purpose leave count names (place + 1))

/-- What is wrong with a query. An order may not be about what is outside of the query. -/
def Query.complaint? (s : Setting) : Query → Option EngineFault
  | .select _ results sources condition groups having sort _ limit offset =>
      let blank := sources.foci s []
      let inner := s.within blank
      let named := inner.naming (results.namedIn inner)
      let count := (results.heading inner).length
      let sums := !groups.isEmpty || results.sumUp inner
      let ofKeys (purpose : String) : Option EngineFault :=
        if purpose = "ORDER" then
          sort.keysComplaint? named.alone "ORDER" .all count (results.givenNames inner) 0
        else groups.keysComplaint? named.alone "GROUP" { sums := true } count [] 0
      (((limit.judge s.outermost .row none).fault.or (offset.judge s.outermost .row none).fault).or
        ((sources.complaint? s).or (results.complaint? inner .all))) |>.or
      ((((if having = .always || sums then none else some .conditionWithoutGroups).or
        (having.judge named { sums } none).fault).or
          ((condition.judge named { sums } none).fault.or (sources.onComplaint? named { sums }))).or
            (sources.operandsComplaint? named { sums })) |>.or
      (((ofKeys "ORDER").or (ofKeys "GROUP")).or
        (if results.groupSums inner groups blank then some .sumsInGroups else none))
  | .combine combination a b sort _ limit offset =>
      let count := (a.heading s).length
      ((limit.judge s.outermost .row none).fault.or (offset.judge s.outermost .row none).fault).or
        (((b.complaint? s).or (a.complaint? s)).or
          ((Query.unequal? s combination a.last b).or
            (Query.unknownKey? (Query.toldOfEach s a ++ Query.toldOfEach s b) count sort)))
  | .recurse each heads start step sort _ limit offset =>
      let itself := heads.relation (start.heading s)
      let inner := { s with itself := some itself }
      let combination := if each then Combination.union else .unionAll
      let count := (start.heading s).length
      ((limit.judge s.outermost .row none).fault.or (offset.judge s.outermost .row none).fault).or
        (((step.complaint? inner).or (start.complaint? s)).or
          ((Query.unequal? inner combination start step).or
            (Query.unknownKey? (Query.toldOfEach s start ++ Query.toldOfEach inner step)
              count sort)))

def Source.complaint? (s : Setting) : Source → Option EngineFault
  | .query query _ => query.complaint? s
  | .nested sources => (sources.complaint? s).or
      (sources.onComplaint? (s.within (sources.foci s [])) .row)
  | _ => none

def Sources.complaint? (s : Setting) : Sources → Option EngineFault
  | .nil => none
  | .cons source _ _ _ tail => (source.complaint? s).or (tail.complaint? s)

/-- What is wrong with the conditions between sources. -/
def Sources.onComplaint? (s : Setting) (leave : Leave) : Sources → Option EngineFault
  | .nil => none
  | .cons _ _ _ on tail => (on.judge s leave none).fault.or (tail.onComplaint? s leave)

/-- What is wrong with what functions among sources are called with. -/
def Sources.operandsComplaint? (s : Setting) (leave : Leave) : Sources → Option EngineFault
  | .nil => none
  | .cons source _ _ _ tail =>
      match source with
      | .function _ arguments => (arguments.complaint? s leave).or (tail.operandsComplaint? s leave)
      | _ => tail.operandsComplaint? s leave

end

namespace Expr

/-- What is wrong with an expression that may hold some functions. -/
def complaint? (s : Setting) (leave : Leave) (e : Expr) : Option EngineFault :=
  (e.judge s leave none).fault

end Expr
end CodeAudit
