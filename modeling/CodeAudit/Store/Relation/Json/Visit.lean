import CodeAudit.Store.Relation.Json.Path

/-!
Walking through JSON. Every value has a number: it is counted before what stands inside of it, and
so is the name of a member before its value. Where it stands is told by a path.
-/
namespace CodeAudit
namespace Json

mutual

/-- How many numbers a value takes. -/
def count : Json → Nat
  | array items => countItems items + 1
  | object members => countMembers members + 1
  | _ => 1

def countItems : List Json → Nat
  | [] => 0
  | item :: items => item.count + countItems items

def countMembers : List (JsonLabel × Json) → Nat
  | [] => 0
  | (_, value) :: members => value.count + 1 + countMembers members

end

/-- A value that is come across. -/
structure Visit where
  value : Json
  number : Nat
  /-- The name or the place of the value inside of another one. -/
  key : Cell := .null
  /-- The number of the value that it stands in. -/
  parent : Option Nat := none
  path : Text
  /-- The path to the value that it stands in. -/
  around : Text

namespace JsonLabel

def cell (label : JsonLabel) : Cell := (Json.text ((label.written.drop 1).dropLast)).toCell

/-- The name as a step of a path: in quotes unless it is a letter followed by letters and digits. -/
def step (label : JsonLabel) : Text :=
  let inside := (label.written.drop 1).dropLast
  let isLetter (b : UInt8) : Bool := 97 ≤ lowerByte b && lowerByte b ≤ 122
  if inside.head?.any isLetter && inside.all (fun b => isLetter b || isDigitByte b) then
    46 :: inside
  else 46 :: label.written

end JsonLabel

def placeStep (place : Nat) : Text := [91] ++ Text.ofNat place ++ [93]

/-- What stands right inside of a value, which is at a path. -/
def inside (around : Visit) : List Visit :=
  match around.value with
  | array items =>
      items.zipIdx.map (fun (value, place) =>
        { value, number := around.number + 1 + countItems (items.take place),
          key := .integer (Int64.ofNat place)
          parent := some around.number, path := around.path ++ placeStep place,
            around := around.path })
  | object members =>
      members.zipIdx.map (fun ((label, value), place) =>
        { value, number := around.number + 2 + countMembers (members.take place),
          key := JsonLabel.cell label
          parent := some around.number, path := around.path ++ JsonLabel.step label,
            around := around.path })
  | _ => []

/-- A value and all that stands inside of it. Every round goes one level further, so the number of
values bounds them. -/
def visits : Nat → Visit → List Visit
  | 0, _ => []
  | fuel + 1, visit => visit :: (inside visit).flatMap (visits fuel)

/-- What a path leads to from a value. In lists on the way the place is not kept. Every round takes
a byte, so the length of the path bounds them. -/
def visitAt : Nat → Visit → Text → Except Text (Option Visit)
  | 0, visit, _ => .ok (some visit)
  | fuel + 1, visit, path =>
      if path.isEmpty then .ok (some visit)
      else do
        match ← visit.value.stepAt path with
        | none => return none
        | some (step, rest) =>
            let found :=
              match step, visit.value with
              | .item place, array _ =>
                  ((inside visit)[place]?).map (fun child =>
                    { child with key := .null, path := visit.path ++ placeStep 0 })
              | .member key, object members =>
                  (members.findIdx? (fun (label, _) => label.key == key)).bind
                    (fun place => (inside visit)[place]?)
              | _, _ => none
            match found with
            | none => return none
            | some child => visitAt fuel child rest

end Json
end CodeAudit
