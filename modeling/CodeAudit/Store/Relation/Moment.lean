import CodeAudit.Store.Relation.Format

/-!
Points in time, in milliseconds from noon of the first day of the year -4713, which is the day
-4712-01-01 of a calendar that has no leap days left out. A moment is a date, a time of day, or such
a count, and each is worked out from the others when it is needed. Modifiers move a moment.
-/
namespace CodeAudit

structure Clock where
  hour : Int := 0
  minute : Int := 0
  second : Numeral := .finite false 0 0
deriving DecidableEq, Repr

structure Day where
  year : Int
  month : Int
  day : Int
deriving DecidableEq, Repr

/-- A point in time, as far as it is known. -/
structure Moment where
  count : Option Int := none
  day : Option Day := none
  clock : Option Clock := none
  /-- Minutes before the time of the first meridian. -/
  zone : Int := 0
  /-- A number that has not been taken for a count of days or of seconds yet. -/
  number : Option Numeral := none
  /-- It is told by how much the time differs from that of the first meridian. -/
  isZoned : Bool := false
deriving DecidableEq, Repr

namespace Moment

def msPerDay : Int := 86400000

/-- The count of the first moment of 1970. -/
def epoch : Int := 210866760000000

def last : Int := 464269060799999

def isValid (count : Int) : Bool := 0 ≤ count && count ≤ last

/-- What the clock shows whenever it is asked. -/
def now : Moment := { count := some (epoch + 1795000000000) }

def real (i : Int) : Numeral := .ofInt i

def milliseconds (seconds : Numeral) : Int :=
  ((seconds.mul (real 1000)).add (.ofScientific false 5 10 (-1))).truncate

/-- The count of the first moment of a day, or of noon before it. -/
def countOfDay (day : Day) : Int :=
  let year := if day.month ≤ 2 then day.year - 1 else day.year
  let month := if day.month ≤ 2 then day.month + 12 else day.month
  let century := year.tdiv 100
  let leaps := 2 - century + century.tdiv 4
  let years := (36525 * (year + 4716)).tdiv 100
  let months := (306001 * (month + 1)).tdiv 10000
  (2 * (years + months + day.day + leaps) - 3049) * 43200000

/-- Works out the count, unless the year is out of range or nothing but a number is known. -/
def counted? (m : Moment) : Option Moment :=
  if m.count.isSome then some m
  else
    let day := m.day.getD ⟨2000, 1, 1⟩
    if day.year < -4713 ∨ 9999 < day.year ∨ m.number.isSome then none
    else
      let count := countOfDay day
      match m.clock with
      | none => some { m with count := some count }
      | some clock =>
          let count := count + clock.hour * 3600000 + clock.minute * 60000 +
            milliseconds clock.second
          if m.zone = 0 then some { m with count := some count }
          else some { m with
            count := some (count - m.zone * 60000), day := none, clock := none, zone := 0 }

def dayOfCount (count : Int) : Day :=
  let days := (count + 43200000).tdiv msPerDay
  let centuries := (4 * days - 7468865).tdiv 146097
  let a := days + 1 + centuries - centuries.tdiv 4
  let b := a + 1524
  let c := (100 * b - 12210).tdiv 36525
  let d := (36525 * (c % 32768)).tdiv 100
  let e := (10000 * (b - d)).tdiv 306001
  let month := if e < 14 then e - 1 else e - 13
  { day := b - d - (306001 * e).tdiv 10000, month,
    year := if 2 < month then c - 4716 else c - 4715 }

def dated? (m : Moment) : Option Moment :=
  if m.day.isSome then some m
  else
    match m.count with
    | none => some { m with day := some ⟨2000, 1, 1⟩ }
    | some count => if isValid count then some { m with day := some (dayOfCount count) } else none

def clockOfCount (count : Int) : Clock :=
  let ms := (count + 43200000).tmod msPerDay
  let whole := ms.tdiv 1000
  let fraction := ((real ms).div (real 1000)).add (real (-whole))
  let hour := whole.tdiv 3600
  let minute := (whole - hour * 3600).tdiv 60
  { hour, minute, second := fraction.add (real (whole - hour * 3600 - minute * 60)) }

def clocked? (m : Moment) : Option Moment := do
  if m.clock.isSome then some m
  else
    let m ← m.counted?
    some { m with clock := m.count.map clockOfCount, number := none }

/-- Works out the day and the time. -/
def split? (m : Moment) : Option Moment := m.dated?.bind clocked?

def onlyCount (m : Moment) : Moment := { m with day := none, clock := none, zone := 0 }

def move (m : Moment) (ms : Int) : Moment := { m with count := m.count.map (· + ms) }

/-! Reading. -/

def digitsAt? (count least most : Nat) (t : Text) : Option (Int × Text) := do
  let digits := t.take count
  if digits.length = count ∧ digits.all isDigitByte then
    let n ← Document.ofDigits? 10 digits
    if least ≤ n ∧ n ≤ most then some (n, t.drop count) else none
  else none

def after? (b : UInt8) (t : Text) : Option Text := if t.head? = some b then some t.tail else none

/-- The difference from the time of the first meridian in minutes, if it is told, at the end of a
text. -/
def zoneAt? (t : Text) : Option (Int × Bool) :=
  let t := t.dropWhile isBlankByte
  let signed (sign : Int) (t : Text) : Option (Int × Bool) := do
    let (hours, t) ← digitsAt? 2 0 14 t
    let (minutes, t) ← digitsAt? 2 0 59 (← after? 58 t)
    if t.all isBlankByte then some (sign * (minutes + hours * 60), true) else none
  match t with
  | [] => some (0, false)
  | 45 :: rest => signed (-1) rest
  | 43 :: rest => signed 1 rest
  | b :: rest => if (b = 90 ∨ b = 122) ∧ rest.all isBlankByte then some (0, true) else none

def fractionOf (digits : Text) : Numeral :=
  let (sum, scale) := digits.foldl (fun ((sum, scale) : Numeral × Numeral) b =>
    (((sum.mul (real 10)).add (real b.toNat)).add (real (-48)), scale.mul (real 10)))
      (real 0, real 1)
  sum.div scale

def clockAt? (t : Text) : Option Moment := do
  let (hour, t) ← digitsAt? 2 0 24 t
  let (minute, t) ← digitsAt? 2 0 59 (← after? 58 t)
  let (second, t) ←
    match after? 58 t with
    | none => some (real 0, t)
    | some t => do
        let (second, t) ← digitsAt? 2 0 59 t
        match t with
        | 46 :: rest =>
            let digits := rest.takeWhile isDigitByte
            if digits.isEmpty then some (real second, t)
            else some ((real second).add (fractionOf digits), rest.drop digits.length)
        | t => some (real second, t)
  let (zone, isZoned) ← zoneAt? t
  some { clock := some { hour, minute, second }, zone, isZoned }

def dayAt? (t : Text) : Option Moment := do
  let isNegative := t.head? = some 45
  let (year, t) ← digitsAt? 4 0 9999 (if isNegative then t.tail else t)
  let (month, t) ← digitsAt? 2 1 12 (← after? 45 t)
  let (day, t) ← digitsAt? 2 1 31 (← after? 45 t)
  let rest := t.dropWhile (fun b => isBlankByte b || b == 84)
  let day : Day := { year := if isNegative then -year else year, month, day }
  if rest.isEmpty then some { day := some day }
  else
    let m ← clockAt? rest
    let m := { m with day := some day }
    if m.zone = 0 then some m else m.counted?

/-- A number, which is taken for a count of days if it is in range. -/
def ofNumber (value : Numeral) : Moment :=
  let inRange := !value.isNegative && value.compareTo (.ofScientific false 53734845 10 (-1)) == .lt
  let count := ((value.mul (real msPerDay)).add (.ofScientific false 5 10 (-1))).truncate
  { number := some value, count := if inRange then some count else none }

/-- A moment as it is written; nothing if it is none. -/
def ofText? (t : Text) : Option Moment :=
  ((dayAt? t).or (clockAt? t)).or
    (if t.lower = utf8 "now" then some now else (Numeral.ofDecimal? t).map ofNumber)

/-! Modifiers. -/

/-- The number counts seconds from 1970 if it is too large for days. -/
def guessed (m : Moment) : Moment :=
  match m.number, m.count with
  | some value, none =>
      let isLess (a b : Numeral) : Bool := a.compareTo b != .gt
      if isLess (real (-210866760000)) value && isLess value (real 253402300799) then
        { m.onlyCount with
          count :=
            some ((((value.mul (real 1000)).add (real epoch)).add
              (.ofScientific false 5 10 (-1))).truncate)
          number := none }
      else m
  | _, _ => { m with number := none }

def ofSeconds? (m : Moment) : Option Moment := do
  let value ← m.number
  let ms := (value.mul (real 1000)).add (real epoch)
  if ms.isNegative || ms.compareTo (real 464269060800000) != .lt then none
  else some { m.onlyCount with
    count := some (ms.add (.ofScientific false 5 10 (-1))).truncate, number := none }

/-- The next day that is some day of the week, from Sunday on. -/
def onWeekday? (m : Moment) (weekday : Int) : Option Moment := do
  let m ← m.split?
  let m ← { m with zone := 0, count := none }.counted?
  let today := ((m.count.getD 0 + 129600000).tdiv msPerDay).tmod 7
  let today := if weekday < today then today - 7 else today
  some (m.move ((weekday - today) * msPerDay)).onlyCount

/-- The first moment of the day, the month or the year. -/
def startOf? (m : Moment) (unit : Text) : Option Moment := do
  if m.count.isNone && m.day.isNone && m.clock.isNone then none
  else
    let m ← m.dated?
    let m := { m with clock := some {}, number := none, zone := 0, count := none }
    if unit = utf8 "day" then some m
    else if unit = utf8 "month" then some { m with day := m.day.map ({ · with day := 1 }) }
    else if unit = utf8 "year" then
      some { m with day := m.day.map ({ · with month := 1, day := 1 }) }
    else none

def plusMonths (day : Day) (months : Int) : Day :=
  let month := day.month + months
  let years := if 0 < month then (month - 1).tdiv 12 else (month - 12).tdiv 12
  { day with year := day.year + years, month := month - years * 12 }

/-- The units of a shift, the largest number of them and their seconds. -/
def units : List (String × Numeral × Int) :=
  [("second", .ofScientific false 46427 10 10, 1), ("minute", .ofScientific false 77379 10 8, 60),
    ("hour", .ofScientific false 12897 10 7, 3600), ("day", real 5373485, 86400),
      ("month", real 176546, 2592000),
    ("year", real 14713, 31536000)]

/-- Shifts by a number of units. Of months and years only the fraction is counted in days. -/
def shift? (m : Moment) (value : Numeral) (unit : Text) : Option Moment := do
  let unit := if unit.getLast? = some 115 then unit.dropLast else unit
  let (name, limit, seconds) ← units.find? (fun (name, _) => utf8 name = unit)
  let m ← m.counted?
  let isLess (a b : Numeral) : Bool := a.compareTo b == .lt
  if !(isLess limit.negate value && isLess value limit) then none
  else
    let half := Numeral.ofScientific (isLess value (real 0)) 5 10 (-1)
    let whole := value.truncate
    let (m, rest) ←
      if name = "month" ∨ name = "year" then do
        let m ← m.split?
        let months := if name = "month" then whole else 0
        let day := m.day.map (fun day =>
          if name = "month" then plusMonths day months else { day with year := day.year + whole })
        some ({ m with day, count := none }, value.add (real (-whole)))
      else some (m, value)
    let m ← m.counted?
    some (m.move (((rest.mul (real 1000)).mul (real seconds)).add half).truncate).onlyCount

def shiftClock? (m : Moment) (t : Text) : Option Moment := do
  let span ← clockAt? (if t.head?.any isDigitByte then t else t.tail)
  let span ← span.counted?
  let ms := (span.count.getD 0 - 43200000).tmod msPerDay
  let m ← m.counted?
  some (m.move (if t.head? = some 45 then -ms else ms)).onlyCount

/-- Moves a moment as a modifier tells, of which it is told whether it is the first one. -/
def modified? (isFirst : Bool) (m : Moment) (modifier : Text) : Option Moment :=
  let low := modifier.lower
  let named (name : String) : Bool := low == utf8 name
  let begins (front : String) : Bool := (utf8 front).isPrefixOf low
  if named "auto" then if isFirst then some m.guessed else none
  else if named "julianday" then
    if isFirst && m.count.isSome && m.number.isSome then some { m with number := none } else none
  else if named "localtime" then do
    let m ← m.counted?
    let m ← m.onlyCount.split?
    some { m with count := none, number := none }
  else if named "unixepoch" then if isFirst then m.ofSeconds? else none
  else if named "utc" then do
    if m.isZoned then some m
    else
      let m ← m.counted?
      some { count := m.count, isZoned := true }
  else if begins "weekday " then do
    let value ← Numeral.ofDecimal? (low.drop 8)
    let weekday ← value.integer?
    if 0 ≤ weekday ∧ weekday < 7 then m.onWeekday? weekday else none
  else if begins "start of " then m.startOf? (low.drop 9)
  else
    match low with
    | [] => none
    | b :: rest =>
        if b = 43 ∨ b = 45 ∨ isDigitByte b then do
          let number := b :: rest.takeWhile (fun b => b != 58 && !isBlankByte b)
          let value ← Numeral.ofDecimal? number
          let after := low.drop number.length
          if after.head? = some 58 then m.shiftClock? low
          else
            let unit := after.dropWhile isBlankByte
            if unit.length < 3 ∨ 10 < unit.length then none else m.shift? value unit
        else none

def ofCell? : Cell → Option Moment
  | .null => none
  | cell@(.integer _) | cell@(.real _) => some (ofNumber cell.realNumber)
  | cell => ofText? cell.shown.beforeNul

def afterAll? (m : Moment) (modifiers : List Cell) : Option Moment :=
  modifiers.zipIdx.foldlM (fun (m : Moment) (modifier, i) =>
    if modifier.isNull then none else m.modified? (i == 0) modifier.shown.beforeNul) m

/-- The moment that operands tell, the first one by itself and the others as modifiers. -/
def ofCells? : List Cell → Option Moment
  | [] => some now
  | cell :: modifiers => do
      let m ← ((← ofCell? cell).afterAll? modifiers).bind counted?
      if m.count.all isValid then some m else none

def asksClock : List Cell → Bool
  | [] => true
  | cell :: modifiers =>
      let isText := !(cell matches .integer _) && !(cell matches .real _)
      let isOne (names : List String) (cell : Cell) : Bool :=
        names.any (fun name => utf8 name == cell.shown.beforeNul.lower)
      (isText && isOne ["now"] cell) ||
        modifiers.zipIdx.any (fun (modifier, i) =>
          isOne ["localtime", "utc"] modifier &&
            ((ofCell? cell).bind (fun m => m.afterAll? (modifiers.take i))).isSome)

/-! Writing. -/

/-- A number with at least some digits. -/
def padded (width : Nat) (i : Int) : Text :=
  let digits := Text.ofNat i.natAbs
  if i < 0 then 45 :: List.replicate (width - 1 - digits.length) 48 ++ digits
  else List.replicate (width - digits.length) 48 ++ digits

/-- The day, with a sign before a year that is negative. -/
def writeDay (day : Day) : Text :=
  let year := padded 4 (day.year.natAbs % 10000)
  (if day.year < 0 then 45 :: year else year) ++ [45] ++ padded 2 day.month ++ [45] ++
    padded 2 day.day

def writeClock (clock : Clock) : Text :=
  padded 2 clock.hour ++ [58] ++ padded 2 clock.minute ++ [58] ++ padded 2 clock.second.truncate

def days (count : Int) : Numeral := (real count).div (real msPerDay)

def seconds (count : Int) : Int := count.tdiv 1000 - 210866760000

def part? (count : Int) (day : Day) (clock : Clock) (letter : UInt8) : Option Text :=
  let weekday (first : Int) : Int := ((count + first).tdiv msPerDay).tmod 7
  let since :=
    (count - (countOfDay { day with month := 1, day := 1 } + clock.hour * 3600000 +
      clock.minute * 60000 +
    milliseconds clock.second) + 43200000).tdiv msPerDay
  let table : List (String × Text) :=
    [("d", padded 2 day.day), ("H", padded 2 clock.hour), ("j", padded 3 (since + 1)),
      ("W", padded 2 ((since + 7 - weekday 43200000).tdiv 7)), ("m", padded 2 day.month),
      ("M", padded 2 clock.minute), ("s", Text.ofInt (seconds count)),
        ("S", padded 2 clock.second.truncate),
      ("w", Text.ofInt (weekday 129600000)), ("Y", padded 4 day.year), ("%", [37])]
  if letter = 102 then
    let most := Numeral.ofScientific false 59999 10 (-3)
    let second := if clock.second.compareTo most == .gt then most else clock.second
    let (_, figures) := Figures.write { style := .places, precision := 3 } second
    some (List.replicate (6 - figures.length) 48 ++ figures)
  else if letter = 74 then
    some (Figures.write { style := .bySize, precision := 16 } (days count)).2
  else (table.find? (fun (name, _) => utf8 name = [letter])).map Prod.snd

/-- Writes a moment by a pattern, in which letters after percent signs stand for its parts. -/
def write? (count : Int) (day : Day) (clock : Clock) : Text → Option Text
  | [] => some []
  | 37 :: letter :: rest => do
      let part ← part? count day clock letter
      return part ++ (← write? count day clock rest)
  | [37] => none
  | b :: rest => (write? count day clock rest).map (b :: ·)

def tell (operands : List Cell) (f : Moment → Option Cell) : Cell :=
  ((ofCells? operands).bind f).getD .null

def dayText (operands : List Cell) : Cell :=
  tell operands (fun m => (m.dated?.bind day).map (fun day => .text (writeDay day)))

def clockText (operands : List Cell) : Cell :=
  tell operands (fun m => (m.clocked?.bind clock).map (fun clock => .text (writeClock clock)))

def text (operands : List Cell) : Cell :=
  tell operands (fun m => do
    let m ← m.split?
    return .text (writeDay (← m.day) ++ [32] ++ writeClock (← m.clock)))

def julianDay (operands : List Cell) : Cell :=
  tell operands (fun m => m.count.map (fun count => .real (days count)))

def unixSeconds (operands : List Cell) : Cell :=
  tell operands (fun m => m.count.map (fun count => .integer (Int64.ofInt (seconds count))))

/-- A moment by a pattern, which comes before what tells the moment. -/
def patterned : List Cell → Cell
  | [] => .null
  | pattern :: operands =>
      if pattern.isNull then .null
      else
        tell operands (fun m => do
          let m ← m.split?
          return .text (← write? (← m.count) (← m.day) (← m.clock) pattern.shown.beforeNul))

end Moment
end CodeAudit
