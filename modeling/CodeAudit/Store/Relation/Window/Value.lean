import CodeAudit.Store.Relation.Arrangement
import CodeAudit.Store.Relation.Window.Walk

/-!
The values of functions in windows: where a row stands among others, what others near it hold, and
what the rows of its window sum up to.
-/
namespace CodeAudit
namespace Window

/-- A row with what it is ordered by and what a function is called with there. -/
structure Seat where
  keys : List Cell
  operands : List Operand
  /-- The row is summed up. -/
  isCounted : Bool := true

namespace Seat

def operand (seat : Seat) (place : Nat) : Cell :=
  ((seat.operands[place]?).map Operand.cell).getD .null

end Seat

/-- Rows of a partition in their order, and a function that is asked for each of them. -/
structure Asked where
  function : Text
  frame : Frame
  low : Cell := .null
  high : Cell := .null
  sortings : List Query.Sorting := []
  /-- How the operands are compared. -/
  collation : Collation := .binary
  seats : List Seat

namespace Asked

def isNamed (asked : Asked) (known : String) : Bool := asked.function.lower == utf8 known

def areEqual (asked : Asked) (a b : Seat) : Bool :=
  Query.sameCells (asked.sortings.map Query.Sorting.collation) a.keys b.keys

/-- Rows in steps, of one row or of all that are equal. -/
def steps (asked : Asked) : List (List Seat) :=
  if asked.frame.stride = .rows then asked.seats.map (fun seat => [seat])
  else asked.seats.splitBy asked.areEqual

/-! Where a row stands. -/

/-- How many rows come before those that are equal to each row, and how many of different rows. -/
def positions (asked : Asked) : List (Nat × Nat × Nat) :=
  let groups := asked.seats.splitBy asked.areEqual
  let place (before : List (List Seat)) : Nat := (before.map List.length).foldl (· + ·) 0
  groups.zipIdx.flatMap (fun (group, n) =>
    List.replicate group.length (place (groups.take n), n, place (groups.take (n + 1))))

def integer (n : Nat) : Cell := .integer (Int64.ofNat n)

def share (part whole : Nat) : Cell := .ofFinite ((Numeral.ofInt part).div (.ofInt whole))

/-- The number of the part that a row falls into, of equal ones, of which the first may be larger by
one. -/
def tile (rows parts place : Nat) : Nat :=
  let size := rows / parts
  if size = 0 then place + 1
  else
    let large := rows - parts * size
    if place < large * (size + 1) then 1 + place / (size + 1)
    else 1 + large + (place - large * (size + 1)) / size

/-- The number of parts, which the first row tells. -/
def parts (asked : Asked) : Except EngineFault Nat :=
  let told := ((asked.seats.head?.map (fun seat => Seat.operand seat 0)).getD Cell.null).number
  if 0 < told then .ok told.toNatClampNeg else .error (.notPositive "argument of ntile")

/-- A value that another row holds, some way before or after each one, or else what is told instead.
Of rows further on only the next one is known to those who look back. -/
def neighbours (asked : Asked) (looksBack : Bool) : List Cell :=
  asked.seats.zipIdx.map (fun (seat, place) =>
    let distance := if seat.operands.length < 2 then .integer 1 else seat.operand 1
    let there := Cell.calculate (if looksBack then .minus else .plus) (integer (place + 1)) distance
    let found :=
      match there.prefer .numeric with
      | .integer n => if 0 < n then some (n.toNatClampNeg - 1) else none
      | _ => none
    let known := if looksBack then asked.seats.take (place + 2) else asked.seats
    ((found.bind (fun place => known[place]?)).map (fun seat => seat.operand 0)).getD
      (seat.operand 2))

/-! What the rows of a window hold. -/

def distance (asked : Asked) (isStart : Bool) (cell : Cell) : Except EngineFault Cell :=
  let isRange := asked.frame.stride == .range
  let fault := EngineFault.windowDistance isStart (if isRange then "number" else "integer")
  match cell.prefer .numeric with
  | .integer n => if n < 0 then .error fault else .ok (.integer n)
  | .real value => if isRange && !value.isNegative then .ok (.real value) else .error fault
  | _ => .error fault

def edgeDistance (asked : Asked) (isStart : Bool) (edge : Edge) (cell : Cell) :
    Except EngineFault Cell :=
  match edge with
  | .preceding | .following => asked.distance isStart cell
  | _ => .ok .null

def course (asked : Asked) : Except EngineFault Course := do
  let low ← asked.edgeDistance true asked.frame.low asked.low
  let high ← asked.edgeDistance false asked.frame.high asked.high
  let sorting := asked.sortings.head?
  let order := (sorting.map Query.Sorting.order).getD {}
  return {
    frame := asked.frame, low, high
    keys := asked.steps.map (fun step => ((step.head?.map Seat.keys).bind List.head?).getD .null)
    descends := order.descends
    nullsLarge := order.nullsLast.any (· != order.descends)
    collation := (sorting.map Query.Sorting.collation).getD .binary }

/-- The function looks for the least or the largest cell of rows that come and go. For such a
function all rows count, and the last one of equal cells is shown. -/
def slides (asked : Asked) : Bool :=
  (asked.isNamed "min" || asked.isNamed "max") && asked.frame.low != .unbounded &&
    asked.frame.exclusion == .nothing

/-- Rows that are or have been in the window, and what the function keeps of those that are. -/
structure State where
  entered : List Seat := []
  left : Nat := 0
  tally : Tally

namespace State

def inside (state : State) : List Seat := state.entered.drop state.left

end State

def counts (asked : Asked) (seat : Seat) : Bool := seat.isCounted || asked.slides

def enter (asked : Asked) (state : State) (seat : Seat) : Except EngineFault State := do
  let tally ← if asked.counts seat then Function.enter asked.function state.tally seat.operands
    else .ok state.tally
  return { state with entered := state.entered ++ [seat], tally }

def leave (asked : Asked) (state : State) (seat : Seat) : State :=
  { state with
    left := state.left + 1
    tally := if asked.counts seat then Function.leave state.tally seat.operands else state.tally }

/-- The place that is asked for, which counts from one. -/
def sought (seat : Seat) : Except EngineFault Nat :=
  match (seat.operand 1).prefer .numeric with
  | .integer n =>
      if 0 < n then .ok n.toNatClampNeg else .error (.notPositive "second argument to nth_value")
  | _ => .error (.notPositive "second argument to nth_value")

def valueAmong (asked : Asked) (rows : List Seat) (sum : Except EngineFault Cell) (seat : Seat) :
    Except EngineFault Cell := do
  let shown (found : Option Seat) : Cell := (found.map (fun seat => seat.operand 0)).getD .null
  if asked.isNamed "first_value" then return shown rows.head?
  else if asked.isNamed "last_value" then return shown rows.getLast?
  else if asked.isNamed "nth_value" then return shown rows[(← sought seat) - 1]?
  else sum

def besides (asked : Asked) (rows : List (Seat × Nat)) (own : Seat) (place : Nat) : List Seat :=
  let kept := rows.filter (fun (seat, other) =>
    match asked.frame.exclusion with
    | .nothing => true
    | .row => other != place
    | .equals => !asked.areEqual seat own
    | .others => other == place || !asked.areEqual seat own)
  kept.map Prod.fst

def valueAnew (asked : Asked) (rows : List Seat) (own : Seat) : Except EngineFault Cell := do
  let counted := rows.filter Seat.isCounted
  let tally ← counted.foldlM (fun tally seat => Function.enter asked.function tally seat.operands)
    (Function.begin asked.function)
  if asked.isNamed "nth_value" && rows.isEmpty then return .null
  asked.valueAmong rows (Function.outcome asked.function asked.collation true tally) own

/-- The least or the largest cell that is kept: the last one of those that are equal. -/
def lastExtreme (asked : Asked) : Tally → Cell
  | .cells cells => Function.extreme (asked.isNamed "max") asked.collation cells.reverse
  | _ => .null

def answer (asked : Asked) (state : State) (before : Nat) (step : List Seat) :
    Except EngineFault (List Cell) :=
  if asked.frame.exclusion = .nothing then
    let sum :=
      if asked.slides then .ok (asked.lastExtreme state.tally)
      else Function.outcome asked.function asked.collation false state.tally
    step.mapM (asked.valueAmong state.inside sum)
  else
    let rows := (state.entered.zipIdx).drop state.left
    step.zipIdx.mapM (fun (seat, n) => asked.valueAnew (asked.besides rows seat (before + n)) seat)

/-- The values for the rows of all steps, as far as moves lead: those that have not entered, those
that have not left and those that have no values yet. -/
def follow (asked : Asked) (state : State) (before : Nat) :
    List Move → List (List Seat) → List (List Seat) → List (List Seat) →
      Except EngineFault (List Cell)
  | .enter :: moves, step :: outside, leaving, waiting => do
      asked.follow (← step.foldlM asked.enter state) before moves outside leaving waiting
  | .leave :: moves, outside, step :: leaving, waiting =>
      asked.follow (step.foldl asked.leave state) before moves outside leaving waiting
  | .answer :: moves, outside, leaving, step :: waiting => do
      let values ← asked.answer state before step
      return values ++ (← asked.follow state (before + step.length) moves outside leaving waiting)
  | _ :: moves, outside, leaving, waiting => asked.follow state before moves outside leaving waiting
  | [], _, _, _ => .ok []

def values (asked : Asked) : Except EngineFault (List Cell) :=
  let count := asked.seats.length
  if asked.isNamed "row_number" then .ok ((List.range count).map (fun n => integer (n + 1)))
  else if asked.isNamed "rank" then
    .ok (asked.positions.map (fun (before, _, _) => integer (before + 1)))
  else if asked.isNamed "dense_rank" then
    .ok (asked.positions.map (fun (_, group, _) => integer (group + 1)))
  else if asked.isNamed "percent_rank" then
    .ok (asked.positions.map (fun (before, _, _) => if count ≤ 1 then share 0 1
      else share before (count - 1)))
  else if asked.isNamed "cume_dist" then
    .ok (asked.positions.map (fun (_, _, upTo) => share upTo count))
  else if asked.isNamed "ntile" then
    asked.parts.map (fun parts => (List.range count).map
      (fun place => integer (tile count parts place)))
  else if asked.isNamed "lag" then .ok (asked.neighbours true)
  else if asked.isNamed "lead" then .ok (asked.neighbours false)
  else do
    let course ← asked.course
    let steps := asked.steps
    asked.follow { tally := Function.begin asked.function } 0 course.moves steps steps steps

end Asked
end Window
end CodeAudit
