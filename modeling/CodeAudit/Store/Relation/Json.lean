import CodeAudit.Store.Relation.Units
import CodeAudit.Text.Unicode

/-!
Values that JSON writes: nothing, truth values, numbers, texts, lists and maps. Numbers and texts
are kept as they are written.
-/
namespace CodeAudit

/-- The name of a member of a map: what it is found by, and how it is written. -/
structure JsonLabel where
  key : Text
  written : Text
deriving DecidableEq, Repr

inductive Json where
  | null
  | truth (b : Bool)
  | number (hasFraction : Bool) (written : Text)
  /-- What stands between the quotes, escapes included. -/
  | text (written : Text)
  | array (items : List Json)
  | object (members : List (JsonLabel × Json))
  /-- A cell that stands for a value, as it is written. Nothing inside of it is found. -/
  | cell (value : Cell) (written : Text)
deriving Repr

namespace Json

def kind : Json → String
  | null => "null"
  | truth b => if b then "true" else "false"
  | number hasFraction _ => if hasFraction then "real" else "integer"
  | text _ | cell _ _ => "text"
  | array _ => "array"
  | object _ => "object"

def isNull : Json → Bool
  | null => true
  | _ => false

def isContainer : Json → Bool
  | array _ | object _ => true
  | _ => false

def isObject : Json → Bool
  | object _ => true
  | _ => false

/-- A text between quotes, with escapes for quotes, backslashes and control characters. -/
def quote (t : Text) : Text :=
  let letters : List (UInt8 × UInt8) :=
    [(8, 98), (9, 116), (10, 110), (12, 102), (13, 114), (34, 34), (92, 92)]
  let escaped (b : UInt8) : Text :=
    match letters.find? (fun (known, _) => known = b) with
    | some (_, letter) => [92, letter]
    | none => if b < 32 then utf8 "\\u00" ++ Text.ofByte b else [b]
  [34] ++ t.flatMap escaped ++ [34]

mutual

/-- A value without blanks between its parts. -/
def render : Json → Text
  | null => utf8 "null"
  | truth b => utf8 (if b then "true" else "false")
  | number _ written | cell _ written => written
  | text written => [34] ++ written ++ [34]
  | array items => [91] ++ Text.join [44] (renderAll items) ++ [93]
  | object members => [123] ++ Text.join [44] (renderMembers members) ++ [125]

def renderAll : List Json → List Text
  | [] => []
  | item :: items => item.render :: renderAll items

def renderMembers : List (JsonLabel × Json) → List Text
  | [] => []
  | (label, value) :: members => (label.written ++ [58] ++ value.render) :: renderMembers members

end

mutual

/-- A value whose maps have no members that are nothing. -/
def withoutNulls : Json → Json
  | object members => object (membersWithoutNulls members)
  | value => value

def membersWithoutNulls : List (JsonLabel × Json) → List (JsonLabel × Json)
  | [] => []
  | (label, value) :: members =>
      if value.isNull then membersWithoutNulls members
      else (label, value.withoutNulls) :: membersWithoutNulls members

end

def unitAt (t : Text) : Nat := (t.take 4).foldl (fun n b => n * 16 + Document.digitValue b) 0

/-- What a text stands for, escapes replaced. A NUL ends it. Every round takes a byte, so its length
bounds them. -/
def unescape : Nat → Text → Text
  | 0, _ => []
  | fuel + 1, t =>
      match t with
      | [] => []
      | 92 :: 117 :: rest =>
          let unit := unitAt rest
          let rest := rest.drop 4
          if unit = 0 then []
          else
            let low := if rest.take 2 = [92, 117] then unitAt (rest.drop 2) else 0
            if unit / 1024 = 54 ∧ low / 1024 = 55 then
              Text.ofPoint (unit % 1024 * 1024 + low % 1024 + 65536) ++ unescape fuel (rest.drop 6)
            else Text.ofPoint unit ++ unescape fuel rest
      | 92 :: letter :: rest =>
          let letters : List (UInt8 × UInt8) := [(98, 8), (102, 12), (110, 10), (114, 13), (116, 9)]
          ((letters.find? (fun (known, _) => known = letter)).map Prod.snd).getD letter ::
            unescape fuel rest
      | b :: rest => b :: unescape fuel rest

/-- What a value is as a cell: lists and maps are texts. -/
def toCell : Json → Cell
  | null => .null
  | truth b => .ofBool b
  | number hasFraction written =>
      match if hasFraction then none else Cell.wholeNumber? written with
      | some i => .integer i
      | none => .ofReal (Numeral.ofDecimal? written)
  | text written => .text (unescape written.length written)
  | cell value _ => value
  | value => .text value.render

end Json
end CodeAudit
