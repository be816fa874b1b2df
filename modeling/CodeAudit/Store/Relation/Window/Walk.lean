import CodeAudit.Store.Relation.Comparison

/-!
How a window goes over rows. Rows come in steps, of one row or of all that are equal in the order;
each step enters the window once and may leave it later, and has its values when its own window is
complete. Of what comes next only the first row is known.
-/
namespace CodeAudit
namespace Window

/-- What happens next: the next step enters the window or leaves it, or the next one has its
values. -/
inductive Move where
  | enter | leave | answer
deriving DecidableEq, Repr

/-- What rows are ordered by where distances are differences: what each step is, and in which
direction it goes. -/
structure Course where
  frame : Frame
  low : Cell := .null
  high : Cell := .null
  keys : List Cell
  descends : Bool := false
  /-- Nothing comes after everything. -/
  nullsLarge : Bool := false
  collation : Collation := .binary

namespace Course

def count (course : Course) : Nat := course.keys.length

/-- What a step is ordered by; nothing after the last one. -/
def key (course : Course) (step : Nat) : Cell := course.keys.getD step .null

def turned : Comparison → Comparison
  | .atLeast => .atMost
  | .more => .less
  | .atMost => .atLeast
  | comparison => comparison

/-- How a step some distance further compares to another one. What is no number stays where it
is. -/
def reaches (course : Course) (comparison : Comparison) (step : Nat) (distance : Cell)
    (other : Nat) : Bool :=
  let a := course.key step
  let b := course.key other
  let comparison := if course.descends then turned comparison else comparison
  let holds (a b : Cell) : Bool := Cell.holds comparison (a.compareTo course.collation b)
  let compared : Bool :=
    match a with
    | .text _ | .blob _ => holds a b
    | _ =>
        let isAhead := if course.descends then comparison == .atMost else comparison == .atLeast
        if isAhead && !a.isNull && !b.isNull && holds a b then true
        else holds (Cell.calculate (if course.descends then .minus else .plus) a distance) b
  if course.nullsLarge && (a.isNull || b.isNull) then
    match comparison with
    | .atLeast => a.isNull
    | .more => a.isNull && !b.isNull
    | .atMost => b.isNull
    | _ => !a.isNull && b.isNull
  else compared

/-- The window of every step is empty, since it begins after its end. -/
def isEmpty (course : Course) : Bool :=
  let frame := course.frame
  frame.stride != .range && frame.low == frame.high &&
    match frame.low with
    | .following => course.high.number < course.low.number
    | .preceding => course.low.number < course.high.number
    | _ => false

end Course

/-- How far a window has come: how many steps have entered it and left it, how many have their
values, and how often something is still to be put off. -/
structure Walk where
  entered : Nat := 0
  left : Nat := 0
  answered : Nat := 0
  low : Int := 0
  high : Int := 0
  /-- The last move comes first. -/
  moves : List Move := []

namespace Walk

def enter (walk : Walk) : Walk :=
  { walk with entered := walk.entered + 1, moves := .enter :: walk.moves }

def leave (walk : Walk) : Walk := { walk with left := walk.left + 1, moves := .leave :: walk.moves }

def answer (walk : Walk) : Walk :=
  { walk with answered := walk.answered + 1, moves := .answer :: walk.moves }

/-- Goes on as long as a condition holds, at most some times. -/
def goOn (go : Walk → Bool) (move : Walk → Walk) : Nat → Walk → Walk
  | 0, walk => walk
  | fuel + 1, walk => if go walk then Walk.goOn go move fuel (move walk) else walk

/-- Puts off what waits for the lower end. -/
def afterLow (move : Walk → Walk) (walk : Walk) : Walk :=
  if 0 < walk.low then { walk with low := walk.low - 1 } else move walk

/-- Puts off what waits for the upper end. -/
def afterHigh (move : Walk → Walk) (walk : Walk) : Walk :=
  if 0 < walk.high then { walk with high := walk.high - 1 } else move walk

def isSided (course : Course) : Bool := course.frame.low == course.frame.high

/-- Steps leave that are before the lower end. Of the steps, only some are known; what has not
entered does not leave. -/
def leaveBefore (course : Course) (known : Nat) (walk : Walk) : Walk :=
  match course.frame.low, course.frame.stride with
  | .unbounded, _ => walk
  | .current, _ => walk.leave
  | low, .range =>
      let isOutside (walk : Walk) : Bool :=
        walk.left < known &&
          (if low == .following then !course.reaches .atMost walk.answered course.low walk.left
          else !course.reaches .atLeast walk.left course.low walk.answered) &&
          !(isSided course && walk.entered < known && walk.entered ≤ walk.left)
      walk.goOn isOutside leave (course.count + 1)
  | _, _ => walk.afterLow leave

/-- Steps enter that are not beyond the upper end, where that is before the row. -/
def enterUpTo (course : Course) (known : Nat) (isMore : Bool) (walk : Walk) : Walk :=
  match course.frame.stride with
  | .range =>
      let isInside (walk : Walk) : Bool :=
        walk.entered < known && !course.reaches .more walk.entered course.high walk.answered &&
          !(isSided course && isMore && known ≤ walk.entered + 1)
      walk.goOn isInside enter (course.count + 1)
  | _ => walk.afterHigh enter

/-- The upper end of the window of the next step has not been reached. -/
def isBefore (course : Course) (walk : Walk) : Bool :=
  !course.reaches .atLeast walk.answered course.high walk.entered

/-- What happens once the first row of one more step is known. -/
def go (course : Course) (known : Nat) (walk : Walk) : Walk :=
  let fuel := course.count + 1
  match course.frame.low, course.frame.high, course.frame.stride with
  | .following, .unbounded, _ => walk.enter
  | .following, _, .range =>
      walk.enter.goOn (isBefore course) (fun walk => (walk.leaveBefore course known).answer) fuel
  | .following, _, _ => (walk.enter.afterHigh answer).afterLow leave
  | low, .preceding, stride =>
      let walk := walk.enterUpTo course known true
      if low == .preceding && stride == .range then (walk.leaveBefore course known).answer
      else walk.answer.leaveBefore course known
  | _, .unbounded, _ => walk.enter
  | _, .current, _ => walk.enter.answer.leaveBefore course known
  | _, .following, .range =>
      walk.enter.goOn (isBefore course) (fun walk => walk.answer.leaveBefore course known) fuel
  | _, .following, _ => walk.enter.afterHigh (fun walk => walk.answer.leaveBefore course known)

/-- The steps are answered that are left. -/
def finish (course : Course) (walk : Walk) : Walk :=
  walk.goOn (fun walk => walk.answered < course.count) answer (course.count + 1)

/-- What happens at the end, if the window begins after the row. -/
def closeAhead (course : Course) : Nat → Walk → Walk
  | 0, walk => walk
  | fuel + 1, walk =>
      let count := course.count
      let isOver (walk : Walk) : Bool := count ≤ walk.left || count ≤ walk.answered
      if isOver walk then walk.finish course
      else
        match course.frame.high, course.frame.stride with
        | _, .range =>
            let walk := walk.leaveBefore course count
            if count ≤ walk.left then walk.finish course else closeAhead course fuel walk.answer
        | .unbounded, _ =>
            let walk := walk.afterLow answer
            if count ≤ walk.answered then walk else closeAhead course fuel walk.leave
        | _, _ =>
            let walk := walk.afterHigh answer
            if count ≤ walk.answered then walk else closeAhead course fuel (walk.afterLow leave)

/-- What happens once all steps are known. -/
def close (course : Course) (walk : Walk) : Walk :=
  let count := course.count
  match course.frame.low, course.frame.high, course.frame.stride with
  | low, .preceding, stride =>
      let walk := walk.enterUpTo course count false
      if low == .preceding && stride == .range then (walk.leaveBefore course count).answer
      else walk.answer
  | .following, _, _ => closeAhead course (3 * (count + 1) + walk.low.toNat + walk.high.toNat)
      walk.enter
  | _, _, _ =>
      walk.enter.goOn (fun walk => walk.answered < count)
        (fun walk =>
          let walk := walk.answer
          if walk.answered < count then walk.leaveBefore course count else walk)
        (count + 1)

end Walk

namespace Course

/-- All that happens until every step has its values. -/
def moves (course : Course) : List Move :=
  if course.count = 0 then []
  else if course.isEmpty then List.replicate course.count .answer
  else
    let low := course.low.number.toInt
    let high := course.high.number.toInt
    let isAhead := course.frame.low == .following && course.frame.high == .following
    let start : Walk := { low := if isAhead then high - low else low, high }
    let walked := (List.range (course.count - 1)).foldl
      (fun walk step => walk.go course (step + 2)) start
    (walked.close course).moves.reverse

end Course
end Window
end CodeAudit
