import CodeAudit.Store.Relation.Mention
import CodeAudit.Store.Relation.Window.Layer

/-!
The values of expressions and the rows of queries. Most expressions have one value; values that
stand side by side and queries may have several.
-/
namespace CodeAudit

namespace Unary

def apply : Unary → Cell → Cell
  | negate, cell => Cell.calculate .minus (.integer 0) cell
  | same, cell => cell
  | flip, cell => if cell.isNull then .null else .integer (-1 - cell.number)
  | not, cell => .ofTruth (cell.truth?.map (!·))
  | isNull, cell => .ofBool cell.isNull
  | isTrue expected, cell => .ofBool (cell.truth? == some expected)

end Unary

namespace Cell

/-- Two conditions hold, unless one of them fails or may fail. -/
def both (a b : Cell) : Cell :=
  if a.truth? == some false || b.truth? == some false then .integer 0
  else if a.isNull || b.isNull then null
  else .integer 1

/-- One of two conditions holds, unless both fail or may fail. -/
def either (a b : Cell) : Cell :=
  if a.isTrue || b.isTrue then .integer 1
  else if a.isNull || b.isNull then null
  else .integer 0

end Cell

namespace Binary

/-- What an operator makes of two cells, if it needs both. -/
def apply : Binary → Cell → Cell → Cell
  | calculate operation, a, b => Cell.calculate operation a b
  | joined, a, b => Cell.joined a b
  | bitAnd, a, b => Cell.onBits (· &&& ·) a b
  | bitOr, a, b => Cell.onBits (· ||| ·) a b
  | shiftLeft, a, b => Cell.onBits (fun value places => Cell.shifted value places.toInt) a b
  | shiftRight, a, b => Cell.onBits (fun value places => Cell.shifted value (-places.toInt)) a b
  | and, a, b | andThen, a, b => a.both b
  | or, a, b | orElse, a, b => a.either b
  | _, _, _ => .null

end Binary

namespace Cell

/-- A cell as another type is told. Bytes are read as text in the encoding. -/
def castIn (encoding : TextEncoding) (affinity : Affinity) (cell : Cell) : Cell :=
  match affinity, cell with
  | .blob, cell => cell.cast .blob
  | affinity, .blob bytes => (Cell.text (encoding.decode bytes)).cast affinity
  | affinity, cell => cell.cast affinity

def first (cells : List Cell) : Cell := cells.head?.getD null

end Cell

def firstOf (cells : Except Signal (List Cell)) : Except Signal Cell := cells.map Cell.first

/-- The value of an expression comes right from a function that always writes JSON. -/
def Expr.writesJson : Expr → Bool
  | .collate a _ | .cast a _ | .unary .same a => a.writesJson
  | .call function _ _ _ => Function.givesJson function
  | _ => false

/-- The first result of a query comes right from such a function. -/
def Query.writesJson : Query → Bool
  | .select _ results _ _ _ _ _ _ _ _ => results.toList.head?.any Expr.writesJson
  | _ => false

namespace Meaning

def isJson : Meaning → Bool
  | column _ binding =>
      !binding.focus.absent && (Function.table? binding.focus.relation.name).isSome &&
        binding.focus.relation.columns.any Column.hidden &&
          binding.place.any (Function.isDocument binding.focus.row)
  | result _ _ => false

end Meaning

mutual

/-- The query goes on from some rows, and all that it comes to passes through at once. -/
def Query.goesOn : Query → Bool
  | .select _ _ sources _ _ _ _ _ _ _ => sources.goOn
  | .combine _ a b _ _ _ _ => a.goesOn || b.goesOn
  | .recurse _ _ _ _ _ _ _ _ => true

def Source.goesOn : Source → Bool
  | .query query _ => query.goesOn
  | .nested sources => sources.goOn
  | _ => false

def Sources.goOn : Sources → Bool
  | .nil => false
  | .cons source _ _ _ tail => source.goesOn || tail.goOn

end

mutual

def Expr.values (s : Setting) : Expr → Except Signal (List Cell)
  | .value cell => .ok [cell]
  | .parameter => .ok [.null]
  | .truth b => .ok [.ofBool b]
  | .name owner name quoted =>
      match s.resolve owner name with
      | meaning :: _ => .ok [meaning.value]
      | [] => .ok [if quoted then .text name else .null]
  | .star owner => .ok ((s.all owner).map Binding.value)
  | .row items => items.values s
  | .unary operator a => do return [operator.apply (← firstOf (a.values s))]
  | .binary (.compare comparison) a b => do
      return [Expr.compareRows comparison ((a.traits s).zip (b.traits s)) (← a.values s)
        (← b.values s)]
  | .binary .andThen a b => do
      let x ← firstOf (a.values s)
      if x.truth? == some false then return [.integer 0]
      return [x.both (← firstOf (b.values s))]
  | .binary .orElse a b => do
      let x ← firstOf (a.values s)
      if x.isTrue then return [.integer 1]
      return [x.either (← firstOf (b.values s))]
  | .binary operator a
      b => do return [operator.apply (← firstOf (a.values s)) (← firstOf (b.values s))]
  | .collate a _ => a.values s
  | .cast a affinity => do return [(← firstOf (a.values s)).castIn s.encoding affinity]
  | .between a low high => do
      let cells ← a.values s
      let fromLow := Expr.compareRows .atLeast ((a.traits s).zip (low.traits s)) cells
        (← low.values s)
      let toHigh := Expr.compareRows .atMost ((a.traits s).zip (high.traits s)) cells
        (← high.values s)
      return [fromLow.both toHigh]
  | .among a items => do
      let traits := (a.traits s).map (fun trait => (trait.affinity, trait.collation?.getD .binary))
      return [Expr.membership traits (← a.values s) (← items.rows s)]
  | .amongRows a query => do
      let traits := ((a.traits s).zip ((query.heading s).map Prod.snd)).map (fun (x, y) =>
        (x.affinities y, x.collations y))
      return [Expr.membership traits (← a.values s) (← query.rows s .all)]
  | .choose condition yes no => do
      if (← firstOf (condition.values s)).isTrue then yes.values s else no.values s
  | .call function distinct arguments filter => do
      let collation := (arguments.collation? s).getD .binary
      let level := if Function.sumsUp function arguments.toList.length then arguments.level s filter
        else s.scopes.length
      match s.scopes[level]?.bind Scope.group with
      | some rows =>
          let settings ← (rows.map (s.atRow level)).filterM (fun setting => do
            return (← firstOf (filter.values setting)).isTrue)
          let operands ← settings.mapM (fun setting => arguments.operands setting)
          return [← (Function.sumUp function distinct collation operands).mapError Signal.fault]
      | none =>
          if Function.takesFirst function then return [(← arguments.firstOperand s).cell]
          else
            let operand ← (Function.apply function (s.call collation)
              (← arguments.operands s)).mapError Signal.fault
            return [operand.cell]
  | .over function arguments filter window =>
      let known := (s.scopes.head?.map Scope.windows).getD []
      let found := known.find? (fun (e, _) => e == .over function arguments filter window)
      .ok [(found.map (fun (_, operand) => operand.cell)).getD .null]
  | .exists query => do return [.ofBool !(← query.rows s .one).isEmpty]
  | .first query => do
      return ((← query.rows s .one).head?).getD (List.replicate (query.heading s).length .null)
  | .raise resolution message => .error (.refused (.raised message) resolution)

def Exprs.values (s : Setting) : Exprs → Except Signal (List Cell)
  | .nil => .ok []
  | .cons _ e es => do return (← e.values s) ++ (← es.values s)

/-- The values of each of some expressions. -/
def Exprs.rows (s : Setting) : Exprs → Except Signal (List (List Cell))
  | .nil => .ok []
  | .cons _ e es => do return (← e.values s) :: (← es.rows s)

def Exprs.named (s : Setting) (wanted : List Text) : Exprs → Except Signal (List Named)
  | .nil => .ok []
  | .cons title e es => do
      match (Exprs.nameOf title).filter (fun name => wanted.contains name.lower) with
      | some name =>
          return { name, cell := ← firstOf (e.values s), trait := e.trait s } ::
            (← es.named s wanted)
      | none => es.named s wanted

def Exprs.valueAt (s : Setting) : Exprs → Nat → Except Signal Cell
  | .nil, _ => .ok .null
  | .cons _ e es, place => if place = 0 then firstOf (e.values s) else es.valueAt s (place - 1)

/-- The value of an expression comes right from a function that writes JSON. -/
def Expr.isJson (s : Setting) : Expr → Except Signal Bool
  | .name owner name _ => .ok ((s.resolve owner name).head?.any Meaning.isJson)
  | .collate a _ | .cast a _ | .unary .same a => a.isJson s
  | .first query => .ok query.writesJson
  | .choose condition yes no => do
      if (← firstOf (condition.values s)).isTrue then yes.isJson s else no.isJson s
  | .over function arguments filter window =>
      let known := (s.scopes.head?.map Scope.windows).getD []
      let found := known.find? (fun (e, _) => e == .over function arguments filter window)
      .ok (found.any (fun (_, operand) => operand.isJson))
  | .call function _ arguments _ => do
      if Function.takesFirst function then return (← arguments.firstOperand s).isJson
      else if Function.sumsUp function arguments.toList.length then
        return Function.sumsUpJson function
      else if !Function.mayGiveJson function then return false
      else
        let collation := (arguments.collation? s).getD .binary
        let operand ← (Function.apply function (s.call collation) (← arguments.operands s)).mapError
          Signal.fault
        return operand.isJson
  | _ => .ok false

def Exprs.operands (s : Setting) : Exprs → Except Signal (List Operand)
  | .nil => .ok []
  | .cons _ e es => do
      let cell ← firstOf (e.values s)
      let isJson ← e.isJson s
      return { cell, isJson } :: (← es.operands s)

def Exprs.firstOperand (s : Setting) : Exprs → Except Signal Operand
  | .nil => .ok { cell := .null }
  | .cons _ e es => do
      let cell ← firstOf (e.values s)
      if cell.isNull then es.firstOperand s
      else
        let isJson ← e.isJson s
        return { cell, isJson }

/-- The values by which rows are grouped: those of expressions, or those of results at their
places. -/
def Exprs.keys (s : Setting) (result : Nat → Except Signal Cell) : Exprs → Except Signal (List Cell)
  | .nil => .ok []
  | .cons _ e es => do
      let cell ←
        match e.place? with
        | some place => result place
        | none => firstOf (e.values s)
      return cell :: (← es.keys s result)

/-- The functions in an expression that look for the least or the largest cell of rows, which choose
the row that is shown. -/
def Expr.extremes (blank : Setting) (rows : List Setting) :
    Expr → Except Signal (List Query.Extreme)
  | .unary _ a | .cast a _ | .collate a _ | .amongRows a _ => a.extremes blank rows
  | .binary _ a b => do return (← a.extremes blank rows) ++ (← b.extremes blank rows)
  | .between a low high => do
      return (← a.extremes blank rows) ++ (← low.extremes blank rows) ++
        (← high.extremes blank rows)
  | .among a items => do return (← a.extremes blank rows) ++ (← items.extremes blank rows)
  | .choose condition yes no => do
      return (← condition.extremes blank rows) ++ (← yes.extremes blank rows) ++
        (← no.extremes blank rows)
  | .call function distinct arguments filter => do
      match Function.extreme? function arguments.toList.length, arguments.level blank filter with
      | some largest, 0 =>
          let cells ← rows.mapM (fun s => do
            if !(← firstOf (filter.values s)).isTrue then return none
            return some (← firstOf (arguments.values s)))
          let collation := (arguments.collation? blank).getD .binary
          let cells := if distinct then Query.firstCells collation cells else cells
          return [{ largest, collation, isFiltered := filter != .always, cells }]
      | _, _ => arguments.extremes blank rows
  | .over _ arguments filter _ => do return (← arguments.extremes blank rows) ++
      (← filter.extremes blank rows)
  | .row items => items.extremes blank rows
  | _ => .ok []

def Exprs.extremes (blank : Setting) (rows : List Setting) :
    Exprs → Except Signal (List Query.Extreme)
  | .nil => .ok []
  | .cons _ e es => do return (← e.extremes blank rows) ++ (← es.extremes blank rows)

/-- The functions of windows in an expression, with what is known of some rows. -/
def Expr.layers (blank : Setting) (rows : List Setting) : Expr → Except Signal (List Window.Layer)
  | .unary _ a | .cast a _ | .collate a _ | .amongRows a _ => a.layers blank rows
  | .binary _ a b => do return (← a.layers blank rows) ++ (← b.layers blank rows)
  | .between a low high => do
      return (← a.layers blank rows) ++ (← low.layers blank rows) ++ (← high.layers blank rows)
  | .among a items => do return (← a.layers blank rows) ++ (← items.layers blank rows)
  | .choose condition yes no => do
      return (← condition.layers blank rows) ++ (← yes.layers blank rows) ++
        (← no.layers blank rows)
  | .call _ _ arguments _ => arguments.layers blank rows
  | .over function arguments filter (.told base partition sort orders frame low high) => do
      let window := Window.ofFunction function (.told base partition sort orders frame low high)
      let partitions ← rows.mapM (fun s => partition.values s)
      let seats ← rows.mapM (fun s => do
        return ({ keys := ← sort.values s, operands := ← arguments.operands s
                  isCounted := (← firstOf (filter.values s)).isTrue } : Window.Seat))
      let collationOf (e : Expr) : Collation := (e.trait blank).collation?.getD .binary
      return [{
        expr := .over function arguments filter (.told base partition sort orders frame low high)
        window, partitions
        collations := partition.toList.map collationOf
        asked := {
          function, seats
          frame := (Function.ownFrame? function).getD frame
          low := ← firstOf (low.values blank), high := ← firstOf (high.values blank)
          sortings := (sort.toList.zip orders).map
            (fun (e, order) => { collation := collationOf e, order })
          collation := (arguments.collation? blank).getD .binary } }]
  | .row items => items.layers blank rows
  | _ => .ok []

def Exprs.layers (blank : Setting) (rows : List Setting) : Exprs → Except Signal (List Window.Layer)
  | .nil => .ok []
  | .cons _ e es => do return (← e.layers blank rows) ++ (← es.layers blank rows)

/-- The rows of a source, perhaps in any order, which may depend on the rows of those before it.
What is known of them without a row is given. -/
def Source.rows (s : Setting) (demand : Query.Demand) (empty : List Focus) :
    Source → Except Signal (List Focus → Except Signal (List (List Focus)))
  | .table table => do
      match s.table? table.name with
      | none => return fun _ => .ok []
      | some relation =>
          let found :=
            (← relation.scanned).map (fun row => empty.map (fun focus => focus.withRow row))
          return fun _ => .ok found
  | .query query _ => do
      let found := (← query.rows s demand).map (fun cells =>
        empty.map (fun focus => focus.withRow { number := 0, cells }))
      return fun _ => .ok found
  | .function name arguments => .ok (fun before => do
      let cells ← arguments.values (s.within before)
      let rows ← (if cells.isEmpty then .ok [] else Function.tableRows name cells).mapError
        Signal.fault
      return rows.map (fun row => empty.map (fun focus => focus.withRow row)))
  | .itself _ =>
      let rows := (s.itself.map Relation.rows).getD []
      .ok (fun _ => .ok (rows.map (fun row => empty.map (fun focus => focus.withRow row))))
  | .nested sources => do
      let found := (← sources.rows s .unordered [] [[]]).map (fun foci =>
        (foci.zip empty).map (fun (focus, blank) => { focus with hidden := blank.hidden }))
      return fun _ => .ok found
  | .refused cause => .error (.fault cause)

/-- The rows of sources side by side, after the rows of those before. -/
def Sources.rows (s : Setting) (demand : Query.Demand) (blank : List Focus)
    (before : List (List Focus)) :
    Sources → Except Signal (List (List Focus))
  | .nil => .ok before
  | .cons source known join on tail => do
      let empty := join.besides blank (source.foci s known)
      let meets (foci : List Focus) : Except Signal Bool := do
        return (← firstOf (on.values (s.within foci))).isTrue
      let partners ← source.rows s demand empty
      tail.rows s demand (blank ++ empty) (← Sources.joined join meets partners blank empty before)

/-- The rows that a query answers. It may be asked whether there is one, and for no more than
that. -/
def Query.rows (s : Setting) (demand : Query.Demand) : Query → Except Signal (List (List Cell))
  | .select selection results sources condition groups having sort orders limit offset => do
      let limitless := limit == .noLimit
      let limit ← Query.limited demand limitless (← firstOf (limit.values s))
      if limit = 0 then return []
      let offset ← Query.counted (← firstOf (offset.values s))
      let wanted := Query.wanted limit offset
      let blank := sources.foci s []
      let empty := s.within blank
      let reached := Query.reachable blank results.names
        (condition.mentions ++ groups.mentions ++ having.mentions ++ sort.mentions)
      let named (setting : Setting) : Except Signal Setting := do
        return setting.naming (← results.named setting reached)
      let meets (foci : List Focus) : Except Signal Bool := do
        return (← firstOf (condition.values (← named (s.within foci)))).isTrue
      let sumsUp := !groups.isEmpty || results.sumUp empty || having.sumsUp empty ||
        sort.sumUp empty
      let looksAround := !results.overs.isEmpty || !sort.overs.isEmpty
      let mindsOrder := results.mindOrder empty
      let isSorted := !sort.isEmpty && !(demand == .unordered && limitless && !mindsOrder)
      let asked : Query.Demand :=
        if (isSorted || sources.areSeveral) && !looksAround && !mindsOrder then .unordered else .all
      if !sumsUp && !looksAround && !isSorted && selection != .distinct then
        let find (foci : List Focus) : Except Signal (Option (List Cell)) := do
          if ← meets foci then return some (← results.values (s.within foci)) else return none
        let attempt (patience : Option Nat) : Except Signal (List (List Cell)) := do
          Query.gather find [] wanted (← sources.rows { s with patience } asked [] [[]])
        let enough (found : List (List Cell)) : Bool :=
          wanted.any (fun wanted => wanted ≤ found.length)
        let tries := if wanted.isSome && sources.goOn then Query.fewerSteps else []
        let early ← tries.findSomeM? (fun steps => do
          let found ← attempt (some steps)
          return if enough found then some found else none)
        let found ← match early with
          | some found => pure found
          | none => attempt (if wanted.isNone then s.patience else none)
        return Query.cut limit offset found
      let s := { s with patience := none }
      let kept ← (← sources.rows s asked [] [[]]).filterM meets
      let settings ←
        if !sumsUp then pure (kept.map s.within)
        else do
          let keyed ← kept.mapM (fun foci => do
            let setting ← named (s.within foci)
            return (← groups.keys setting (results.valueAt setting), foci))
          let members :=
            if groups.isEmpty then [kept]
            else
              let told := empty.naming (results.namedIn empty)
              Query.grouped
                (Query.sortings (results.heading empty) Expr.place?
                  (fun e => (e.trait told).collation?) groups.toList
                  (groups.toList.map (fun _ => {}))) keyed
          let settings ← members.mapM (fun rows => do
            let alone := rows.map s.within
            let extremes := (← results.extremes empty alone) ++ (← sort.extremes empty alone) ++
              (← having.extremes empty alone)
            let shown := (Query.shownRow (!groups.isEmpty) extremes rows).getD blank
            return (s.within shown).mapScope (fun scope => { scope with group := some rows }))
          settings.filterM
            (fun setting => do return (← firstOf (having.values (← named setting))).isTrue)
      let settings ←
        if !looksAround then pure settings
        else do
          let layers := (← results.layers empty settings) ++
            (← sort.layers empty (← settings.mapM named))
          let laid ← (Window.lay layers settings.length).mapError Signal.fault
          pure (laid.filterMap (fun (row, windows) =>
            (settings[row]?).map (fun setting =>
              setting.mapScope (fun scope => { scope with windows }))))
      let found ← settings.mapM (fun setting => do
        let keys ← if isSorted then sort.values (← named setting) else pure []
        return ({ results := ← results.values setting, keys } : Query.Found))
      let heading := results.heading empty
      let found := if selection = .distinct then Query.distinctResults heading.collations found
        else found
      let sortings :=
        if isSorted then
          Query.sortings heading (Query.placeOf? (results.givenNames empty))
            (fun e => (e.trait empty).collation?)
            sort.toList orders
        else []
      return Query.cut limit offset (Query.arranged sortings found)
  | .combine combination a b sort orders limit offset => do
      let limitless := limit == .noLimit
      let limit ← Query.limited demand limitless (← firstOf (limit.values s))
      if limit = 0 then return []
      let offset ← Query.counted (← firstOf (offset.values s))
      let heading := (a.compared s).collated (b.compared s)
      let sort := if demand == .unordered && limitless then [] else sort.toList
      let s :=
        { s with patience := if combination = .unionAll && sort.isEmpty then s.patience else none }
      let rows := Query.putTogether heading.collations (!sort.isEmpty) combination (← a.rows s .all)
        (← b.rows s .all)
      let found :=
        rows.map (fun results => ({ results, keys := sort.map (fun _ => .null) } : Query.Found))
      let each := Query.toldOfEach s a ++ Query.toldOfEach s b
      let sortings := Query.sortings heading (Query.commonPlace? each) (fun _ => none) sort orders
      return Query.cut limit offset (Query.arranged sortings found)
  | .recurse each heads start step sort orders limit offset => do
      let limit ← Query.limited demand (limit == .noLimit) (← firstOf (limit.values s))
      if limit = 0 then return []
      let offset ← Query.counted (← firstOf (offset.values s))
      let relation := Relation.ofHeading heads.owner heads.names (start.heading s)
      let heading := (start.compared s).collated (step.compared { s with itself := some relation })
      let bounded := { s with patience := none }
      let next (cells : List Cell) : Except Signal (List (List Cell)) :=
        step.rows { bounded with itself := some { relation with rows := [{ number := 0, cells }] } }
          .all
      let isNew (met : List (List Cell)) (row : List Cell) : Bool :=
        !each || !met.any (fun other => Query.sameCells heading.collations other row)
      let sortings :=
        Query.sortings heading
          (Query.commonPlace?
            (Query.toldOfEach s start ++ Query.toldOfEach { s with itself := some relation } step))
          (fun _ => none) sort.toList orders
      let keysOf (row : List Cell) : List Cell :=
        sortings.map (fun sorting => (sorting.place.bind (fun place => row[place]?)).getD .null)
      let begun ← start.rows bounded .all
      let waiting := if each then Query.firstOnes heading.collations begun else begun
      let found ← Query.unfold next isNew (Query.pick sortings keysOf)
        (s.patience.getD Query.mostSteps)
        (Query.wanted limit offset) [] waiting waiting
      return Query.cut limit offset found

end

namespace Expr

def eval (s : Setting) (e : Expr) : Except Signal Cell := firstOf (e.values s)

end Expr
end CodeAudit
