import CodeAudit.Store.Relation.Function.Json
import CodeAudit.Store.Relation.Function.Number

/-!
Functions that sum up the cells of many rows. What such a function keeps grows with each row that
comes, and where rows are summed up around each other it also loses those that leave, in the order
in which they came. Most functions pass over rows where there is nothing.
-/
namespace CodeAudit

structure Amounts where
  count : Int := 0
  reals : Numeral := .finite false 0 0
  whole : Int := 0
  /-- Not all of them have been integers. -/
  isReal : Bool := false
  overflows : Bool := false
deriving Repr

namespace Amounts

def numberOf (cell : Cell) : Cell := cell.number?.getD (.real cell.realNumber)

def enter (amounts : Amounts) (cell : Cell) : Amounts :=
  let added :=
    { amounts with count := amounts.count + 1, reals := amounts.reals.add cell.realNumber }
  match numberOf cell with
  | .integer value =>
      let total := amounts.whole + value.toInt
      if amounts.isReal then added
      else if total < Cell.int64Min ∨ Cell.int64Max < total then
        { added with isReal := true, overflows := true }
      else { added with whole := total }
  | _ => { added with isReal := true }

def leave (amounts : Amounts) (cell : Cell) : Amounts :=
  let rest :=
    { amounts with count := amounts.count - 1, reals := amounts.reals.add cell.realNumber.negate }
  match numberOf cell with
  | .integer value => if amounts.isReal then rest
      else { rest with whole := amounts.whole - value.toInt }
  | _ => rest

def sum (amounts : Amounts) : Except EngineFault Cell :=
  if amounts.count ≤ 0 then .ok .null
  else if amounts.overflows then .error .overflow
  else if amounts.isReal then .ok (.ofFinite amounts.reals)
  else .ok (.integer (Int64.ofInt amounts.whole))

end Amounts

/-- Texts that are put one after the other, each but the first after what separates it. -/
structure Chain where
  text : Text := []
  count : Int := 0
  /-- Something stands there, so that the next text is separated from it. -/
  isBegun : Bool := false
  /-- The length of what separates the first text from the second one. -/
  gap : Nat := 0
  /-- The lengths of everything that separates texts, once they differ. -/
  gaps : Option (List Nat) := none
deriving Repr

namespace Chain

def separator : List Operand → Text
  | [_, separator] => separator.cell.shown
  | _ => [44]

def shown (row : List Operand) : Text := (row.head?.map (fun operand => operand.cell.shown)).getD []

def enter (chain : Chain) (row : List Operand) : Chain :=
  let between := separator row
  let longer := { chain with count := chain.count + 1, isBegun := true }
  if !chain.isBegun then { longer with text := chain.text ++ shown row, gap := between.length }
  else
    let gaps : Option (List Nat) :=
      match chain.gaps with
      | some gaps => some (gaps ++ [between.length])
      | none =>
          if between.length = chain.gap || row.length < 2 then none
          else some (List.replicate (chain.count - 1).toNat chain.gap ++ [between.length])
    { longer with text := chain.text ++ between ++ shown row, gaps }

/-- Takes away the first text and what separates the next one from it. -/
def leave (chain : Chain) (row : List Operand) : Chain :=
  let count := chain.count - 1
  let (length, gaps) :=
    match chain.gaps with
    | some (gap :: gaps) => if 0 < count then (gap, some gaps) else (0, some (gap :: gaps))
    | some [] => (0, some [])
    | none => (chain.gap, none)
  let text := chain.text.drop ((shown row).length + length)
  if text.isEmpty then { chain with text, count, isBegun := false, gaps := none }
  else { chain with text, count, gaps }

end Chain

/-- What a function keeps of the rows that it sums up. -/
inductive Tally where
  | number (count : Int)
  | amounts (amounts : Amounts)
  /-- Texts, once there is one. -/
  | chain (chain : Option Chain)
  | items (items : List Text)
  /-- The cells themselves, which are as many as the rows that hold something. -/
  | cells (cells : List Cell)
deriving Repr

namespace Function

/-- The least cell, or the largest one: the first of those that are equal. -/
def extreme (largest : Bool) (collation : Collation) : List Cell → Cell
  | [] => .null
  | first :: rest =>
      rest.foldl (fun best cell =>
        if cell.compareTo collation best == (if largest then .gt else .lt) then cell
        else best) first

/-- The first of every rows whose first operands are equal. -/
def distinctRows (collation : Collation) : List (List Operand) → List (List Operand)
  | [] => []
  | row :: rest =>
      let cell (row : List Operand) : Cell := (row.head?.map Operand.cell).getD .null
      row :: (distinctRows collation rest).filter
        (fun other => (cell row).compareTo collation (cell other) != .eq)

def jsonMember : List Operand → Except EngineFault Text
  | label :: value :: _ => do
      return (if label.cell.isNull then [] else Json.quote label.cell.shown) ++ [58] ++
        (← value.written)
  | _ => .ok []

def isNamed (name : Text) (known : String) : Bool := name.lower == utf8 known

def begin (name : Text) : Tally :=
  if isNamed name "count" then .number 0
  else if ["sum", "total", "avg"].any (isNamed name) then .amounts {}
  else if isNamed name "group_concat" then .chain none
  else if ["json_group_array", "json_group_object"].any (isNamed name) then .items []
  else .cells []

def enter (name : Text) (tally : Tally) (row : List Operand) : Except EngineFault Tally :=
  let cell := (row.head?.map Operand.cell).getD .null
  let isPresent := !cell.isNull
  match tally with
  | .number count => .ok (.number (if row.isEmpty || isPresent then count + 1 else count))
  | .amounts amounts => .ok (.amounts (if isPresent then amounts.enter cell else amounts))
  | .chain chain => .ok (.chain (if isPresent then some ((chain.getD {}).enter row) else chain))
  | .items items => do
      let item ←
        if isNamed name "json_group_object" then jsonMember row
        else (row.head?.map Operand.written).getD (.ok [])
      return .items (items ++ [item])
  | .cells cells => .ok (.cells (if isPresent then cells ++ [cell] else cells))

/-- What is kept once the row that came first has left. -/
def leave (tally : Tally) (row : List Operand) : Tally :=
  let cell := (row.head?.map Operand.cell).getD .null
  let isPresent := !cell.isNull
  match tally with
  | .number count => .number (if row.isEmpty || isPresent then count - 1 else count)
  | .amounts amounts => .amounts (if isPresent then amounts.leave cell else amounts)
  | .chain chain => .chain (if isPresent then chain.map (fun chain => chain.leave row) else chain)
  | .items items => .items items.tail
  | .cells cells => .cells (if isPresent then cells.tail else cells)

/-- What a function gives for the rows that there are. If there may be others later, texts that are
empty are nothing. -/
def outcome (name : Text) (collation : Collation) (isLast : Bool) : Tally → Except EngineFault Cell
  | .number count => .ok (.integer (Int64.ofInt count))
  | .amounts amounts =>
      if isNamed name "total" then .ok (.ofFinite amounts.reals)
      else if isNamed name "sum" then amounts.sum
      else if amounts.count ≤ 0 then .ok .null
      else .ok (.ofFinite (amounts.reals.div (.ofInt amounts.count)))
  | .chain none => .ok .null
  | .chain (some chain) => .ok (if chain.text.isEmpty && !isLast then .null else .text chain.text)
  | .items items =>
      let (opening, closing) : UInt8 × UInt8 := if isNamed name "json_group_object" then (123, 125)
        else (91, 93)
      .ok (.text ([opening] ++ Text.join [44] items ++ [closing]))
  | .cells cells => .ok (extreme (isNamed name "max") collation cells)

def sumUp (name : Text) (distinct : Bool) (collation : Collation) (rows : List (List Operand)) :
    Except EngineFault Cell := do
  let rows := if distinct then distinctRows collation rows else rows
  outcome name collation true (← rows.foldlM (enter name) (begin name))

end Function
end CodeAudit
