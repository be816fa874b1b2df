import CodeAudit.Store.Relation.Function.Sum
import CodeAudit.Store.Relation.Function.Text
import CodeAudit.Store.Relation.Moment
import CodeAudit.Store.Relation.Purpose

/-!
Functions by name, and what they are called with. Most of them give nothing when an operand is
nothing. What depends on the clock or on chance has one value all the time, and may not be asked for
where a value is kept.
-/
namespace CodeAudit

/-- What a function is called with besides its operands. -/
structure Invocation where
  collation : Collation := .binary
  /-- The number of the row that was added last. -/
  lastNumber : Int64 := 0
  /-- The number of rows that the last statement wrote, and that of all statements. -/
  changes : Nat := 0
  allChanges : Nat := 0
  /-- What the value is for, if a declaration asks for it. -/
  purpose : Option Purpose := none
deriving Repr

structure Builtin where
  name : String
  /-- The least number of operands and the largest one. -/
  least : Nat
  most : Nat
  /-- The value may be another one the next time. -/
  varies : Bool := false
  value : Invocation → List Operand → Except EngineFault Operand

namespace Builtin

/-- A function that looks at nothing but its operands and always has a value. -/
def plain (name : String) (least most : Nat) (f : List Cell → Cell) : Builtin :=
  { name, least, most, value := fun _ operands => .ok { cell := f (operands.map Operand.cell) } }

def unary (name : String) (f : Cell → Cell) : Builtin :=
  plain name 1 1 (fun cells => f (cells.head?.getD .null))

def binary (name : String) (f : Cell → Cell → Cell) : Builtin :=
  plain name 2 2 (fun cells => f (cells.getD 0 .null) (cells.getD 1 .null))

/-- A function of operands that may be wrong. -/
def trying (name : String) (least most : Nat) (f : List Cell → Except EngineFault Cell) : Builtin :=
  { name, least, most
    value := fun _ operands => (f (operands.map Operand.cell)).map (fun cell => { cell }) }

def json (name : String) (least most : Nat) (f : List Operand → Except EngineFault Cell) :
    Builtin :=
  { name, least, most, value := fun _ operands =>
    (f operands).map (fun cell => { cell, isJson := true }) }

def ofCall (name : String) (f : Invocation → Cell) : Builtin :=
  { name, least := 0, most := 0, varies := true, value := fun call _ => .ok { cell := f call } }

/-- A function of a moment, which its operands tell after some others. What the clock shows is not
asked for where a value is kept. -/
def ofMoment (name : String) (before : Nat) (f : List Cell → Cell) : Builtin :=
  { name, least := 0, most := 127
    value := fun call operands =>
      let cells := operands.map Operand.cell
      match call.purpose with
      | some purpose =>
          if before ≤ cells.length && !(cells.take before).any Cell.isNull &&
              Moment.asksClock (cells.drop before) then
            .error (.varies name purpose.place)
          else .ok { cell := f cells }
      | none => .ok { cell := f cells } }

/-- A function that is there only for other kinds of tables. -/
def unusable (name : String) (least most : Nat) : Builtin :=
  { name, least, most, value := fun _ _ => .error (.unusable name) }

end Builtin

namespace Function

/-- The least of several cells, or the largest one; nothing if one of them is nothing. Of cells that
are equal the last one is least, and the first one largest. -/
def extremeOf (name : String) (largest : Bool) : Builtin :=
  { name, least := 1, most := 127
    value := fun call operands =>
      let better (best operand : Operand) : Operand :=
        let order := operand.cell.compareTo call.collation best.cell
        if (if largest then order == .gt else order != .gt) then operand else best
      match operands with
      | first :: rest =>
          .ok (if operands.any (fun operand => operand.cell.isNull) then { cell := .null }
            else rest.foldl better first)
      | [] => .ok { cell := .null } }

def ofTexts : List Builtin :=
  [.plain "char" 0 127 ofPoints, .unary "hex" (fun a => .text (upperHex a.shown)),
    .binary "instr" find,
    .unary "length" length, .unary "lower" (ofText? Text.lower),
    .plain "ltrim" 1 2 (fun cells => strip true false cells[1]? (cells.getD 0 .null)),
    .plain "rtrim" 1 2 (fun cells => strip false true cells[1]? (cells.getD 0 .null)),
    .plain "trim" 1 2 (fun cells => strip true true cells[1]? (cells.getD 0 .null)),
    .unary "quote" (fun a => .text (quoted a)),
    .plain "replace" 3 3
      (fun cells => replaced (cells.getD 0 .null) (cells.getD 1 .null) (cells.getD 2 .null)),
    .unary "soundex" soundex,
    .plain "substr" 2 3 (fun cells => part (cells.getD 0 .null) (cells.getD 1 .null) cells[2]?),
    .plain "substring" 2 3 (fun cells => part (cells.getD 0 .null) (cells.getD 1 .null) cells[2]?),
    .unary "typeof" (fun a => .text (utf8 a.typeName)), .unary "unicode" firstPoint,
    .unary "upper" (ofText? (List.map upperByte)),
    .trying "zeroblob" 1 1 (fun cells => zeros (cells.getD 0 .null)),
    .trying "like" 2 3 (fun cells => like false (cells.getD 0 .null) (cells.getD 1 .null)
      cells[2]?),
    .trying "glob" 2 2 (fun cells => like true (cells.getD 0 .null) (cells.getD 1 .null) none),
    .plain "format" 0 127 Format.ofCells, .plain "printf" 0 127 Format.ofCells]

def ofNumbers : List Builtin :=
  [.trying "abs" 1 1 (fun cells => absolute (cells.getD 0 .null)),
    .plain "round" 1 2 (fun cells => round (cells.getD 0 .null) (cells.getD 1 (.integer 0))),
      .unary "sign" sign,
    .plain "pi" 0 0 (fun _ => .real Elementary.pi),
    .plain "log" 1 2 (fun cells => Elementary.log (cells.getD 0 .null) cells[1]?)] ++
  Elementary.unary.map (fun (name, f) => .unary name (Elementary.applyUnary f)) ++
  Elementary.binary.map (fun (name, f) => .binary name (Elementary.applyBinary f)) ++
  Elementary.whole.map (fun (name, further) => .unary name (Elementary.applyWhole further))

def ofMoments : List Builtin :=
  [.ofMoment "date" 0 Moment.dayText, .ofMoment "datetime" 0 Moment.text,
    .ofMoment "julianday" 0 Moment.julianDay,
    .ofMoment "strftime" 1 Moment.patterned, .ofMoment "time" 0 Moment.clockText,
    .ofMoment "unixepoch" 0 Moment.unixSeconds,
    .ofCall "current_date" (fun _ => Moment.dayText []),
      .ofCall "current_time" (fun _ => Moment.clockText []),
    .ofCall "current_timestamp" (fun _ => Moment.text [])]

def ofJson : List Builtin :=
  let at0 (operands : List Operand) : Cell := (operands[0]?.map Operand.cell).getD .null
  let at1 (operands : List Operand) : Cell := (operands[1]?.map Operand.cell).getD .null
  [.json "json" 1 1 (fun operands => do return jsonText (← jsonOf (at0 operands))),
    .json "json_array" 0 127 jsonArray,
    .trying "json_array_length" 1 2 (fun cells => jsonLength (cells.getD 0 .null) cells[1]?),
    { name := "json_extract", least := 0, most := 127,
      value := fun _ operands => jsonExtract operands },
    .json "->" 2 2 (fun operands => jsonAt false (at0 operands) (at1 operands)),
    .trying "->>" 2 2 (fun cells => jsonAt true (cells.getD 0 .null) (cells.getD 1 .null)),
    { name := "json_insert", least := 0, most := 127,
      value := fun _ operands => jsonPut "insert" false true operands },
    { name := "json_replace", least := 0, most := 127
      value := fun _ operands => jsonPut "replace" true false operands },
    { name := "json_set", least := 0, most := 127,
      value := fun _ operands => jsonPut "set" true true operands },
    .json "json_object" 0 127 jsonObject,
    .json "json_patch" 2 2 (fun operands => jsonPatch (at0 operands) (at1 operands)),
    .json "json_quote" 1 1 (fun operands => do
      return .text (← (operands.head?.getD { cell := .null }).written)),
    .json "json_remove" 0 127 (fun operands => jsonDrop (operands.map Operand.cell)),
    .trying "json_type" 1 2 (fun cells => jsonKind (cells.getD 0 .null) cells[1]?),
    .unary "json_valid" jsonIsValid]

/-- Functions about the library and what it has done. -/
def ofCalls : List Builtin :=
  [.ofCall "changes" (fun call => .integer (Int64.ofNat call.changes)),
    .ofCall "total_changes" (fun call => .integer (Int64.ofNat call.allChanges)),
    .ofCall "last_insert_rowid" (fun call => .integer call.lastNumber),
    .ofCall "random" (fun _ => .integer 4611686018427387904),
    { Builtin.unary "randomblob" (fun a =>
        .blob (List.replicate (max 1 (min a.number.toNatClampNeg Format.room)) 85)) with varies :=
          true },
    .ofCall "sqlite_version" (fun _ => .text (utf8 "3.40.1")),
    .ofCall "sqlite_source_id" (fun _ =>
      .text (utf8
        "2022-12-28 14:03:47 df5c253c0b3dd24916e4ec7cf77d3db5294cc9fd45ae7b9c5e82ad8197f38a24")),
    .unary "sqlite_compileoption_get" (fun _ => .null),
      .unary "sqlite_compileoption_used" (fun _ => .integer 0),
    .binary "sqlite_log" (fun _ _ => .null), .unusable "MATCH" 2 2, .unusable "snippet" 0 127,
    .unusable "offsets" 1 1, .unusable "matchinfo" 1 2, .unusable "optimize" 1 1]

def ofOperands : List Builtin :=
  let first (name : String) (count : Nat) : Builtin :=
    { name, least := count, most := count,
      value := fun _ operands => .ok (operands.head?.getD { cell := .null }) }
  [first "likely" 1, first "unlikely" 1, first "likelihood" 2, extremeOf "max" true,
    extremeOf "min" false,
    { name := "nullif", least := 2, most := 2
      value := fun call operands =>
        match operands with
        | [a, b] => .ok (if a.cell.equals call.collation b.cell then { cell := .null } else a)
        | _ => .ok { cell := .null } }]

/-- The functions that have a value for each row. -/
def builtins : List Builtin :=
  ofTexts ++ ofNumbers ++ ofMoments ++ ofJson ++ ofOperands ++ ofCalls

/-- The functions that are worked out only as far as needed, or not at all, with the numbers of
their operands. -/
def otherCounts : List (String × Nat × Nat) :=
  [("coalesce", 2, 127), ("ifnull", 2, 2), ("iif", 3, 3), ("load_extension", 1, 2),
    ("fts3_tokenizer", 1, 2)]

/-- The functions that sum up rows, with the numbers of their operands. -/
def sumCounts : List (String × Nat × Nat) :=
  [("avg", 1, 1), ("count", 0, 1), ("group_concat", 1, 2), ("json_group_array", 1, 1),
    ("json_group_object", 2, 2),
    ("sum", 1, 1), ("total", 1, 1), ("max", 1, 1), ("min", 1, 1)]

/-- The functions that look at rows around each row, with the numbers of their operands. -/
def windowCounts : List (String × Nat × Nat) :=
  [("row_number", 0, 0), ("rank", 0, 0), ("dense_rank", 0, 0), ("percent_rank", 0, 0),
    ("cume_dist", 0, 0),
    ("ntile", 1, 1), ("lag", 1, 3), ("lead", 1, 3), ("first_value", 1, 1), ("last_value", 1, 1),
      ("nth_value", 2, 2)]

def builtin? (name : Text) (count : Nat) : Option Builtin :=
  builtins.find? (fun known => (utf8 known.name).lower = name.lower && known.least ≤ count &&
    count ≤ known.most)

/-- Why a function cannot be called with a number of operands. -/
def complaint? (name : Text) (count : Nat) : Option EngineFault :=
  let counts := otherCounts ++ sumCounts ++ windowCounts ++
    builtins.map (fun known => (known.name, known.least, known.most))
  match counts.filter (fun (known, _) => (utf8 known).lower = name.lower) with
  | [] => some (.noFunction name)
  | counts =>
      if counts.any (fun (_, least, most) => least ≤ count && count ≤ most) then none
      else some (.operandCount name)

/-- One of some functions can be called by a name with a number of operands. -/
def isAmong (counts : List (String × Nat × Nat)) (name : Text) (count : Nat) : Bool :=
  counts.any (fun (known, least, most) => isNamed name known && least ≤ count && count ≤ most)

def sumsUp (name : Text) (count : Nat) : Bool := isAmong sumCounts name count

/-- The function is there only for rows around each row. -/
def looksAround (name : Text) (count : Nat) : Bool := isAmong windowCounts name count

def compares (name : Text) : Bool := ["max", "min", "nullif"].any (isNamed name)

/-- The function is not called by what a database tells. -/
def isUnsafe (name : Text) : Bool := ["load_extension", "fts3_tokenizer"].any (isNamed name)

def sumsUpJson (name : Text) : Bool :=
  ["json_group_array", "json_group_object"].any (fun known => utf8 known == name.lower)

def givesJson (name : Text) : Bool :=
  sumsUpJson name ||
    ["json", "json_array", "json_insert", "json_object", "json_patch", "json_quote", "json_remove",
    "json_replace", "json_set", "->"].any (fun known => utf8 known == name.lower)

def mayGiveJson (name : Text) : Bool :=
  (utf8 "json").isPrefixOf name.lower || name == utf8 "->" ||
    ["likely", "unlikely", "likelihood", "max", "min", "nullif"].any
      (fun known => utf8 known == name.lower)

/-- The function may have another value the next time. -/
def varies (name : Text) : Bool :=
  builtins.any (fun known => known.varies && utf8 known.name == name.lower)

/-- The function asks for the largest value of rows, or for the least one. -/
def extreme? (name : Text) (count : Nat) : Option Bool :=
  if count = 1 ∧ name.lower = utf8 "max" then some true
  else if count = 1 ∧ name.lower = utf8 "min" then some false
  else none

/-- The function gives the first operand that is something, and does not look at those after it. -/
def takesFirst (name : Text) : Bool :=
  ["coalesce", "ifnull"].any (fun known => utf8 known == name.lower)

def apply (name : Text) (call : Invocation) (operands : List Operand) :
    Except EngineFault Operand :=
  match builtin? name operands.length with
  | some known => known.value call operands
  | none => .ok { cell := .null }

end Function
end CodeAudit
