import CodeAudit.Store.Relation.Json.Reader

/-!
Paths into JSON. A path begins with a dollar sign; a step leads to a member of a map by its name, or
to an item of a list by its place, which may be counted from the end. A path is looked at only as
far as it leads.
-/
namespace CodeAudit
namespace Json

inductive Step where
  | member (key : Text)
  | item (place : Nat)
deriving DecidableEq, Repr

/-- The first step of a path from a value and what follows it, if it leads anywhere. What cannot be
read is told from there on. -/
def stepAt (value : Json) (path : Text) : Except Text (Option (Step × Text)) :=
  match path with
  | 46 :: 34 :: rest =>
      match value with
      | object _ =>
          let key := rest.takeWhile (· != 34)
          if key.length = rest.length then .error (34 :: rest)
          else .ok (some (.member key, rest.drop (key.length + 1)))
      | _ => .ok none
  | 46 :: rest =>
      match value with
      | object _ =>
          let key := rest.takeWhile (fun b => b != 46 && b != 91)
          if key.isEmpty then .error rest else .ok (some (.member key, rest.drop key.length))
      | _ => .ok none
  | 91 :: rest =>
      let digits := rest.takeWhile isDigitByte
      match Document.ofDigits? 10 digits, rest.drop digits.length with
      | some place, 93 :: after =>
          match value with
          | array _ => .ok (some (.item (place % 4294967296), after))
          | _ => .ok none
      | _, _ =>
          match rest, value with
          | 35 :: _, array items =>
              let back := (rest.drop 2).takeWhile isDigitByte
              let isCounted := rest.drop 1 |>.head? |>.any (· == 45)
              let back := if isCounted then back else []
              let after := if back.isEmpty then rest.drop 1 else rest.drop (2 + back.length)
              let count := (Document.ofDigits? 10 back).getD 0 % 4294967296
              if items.length < count then .ok none
              else if after.head? = some 93 then
                .ok (some (.item (items.length - count), after.drop 1))
              else .error path
          | 35 :: _, _ => .ok none
          | _, _ => .error path
  | path => .error path

def child? (value : Json) : Step → Option Json
  | .member key =>
      match value with
      | object members => (members.find? (fun (label, _) => label.key = key)).map Prod.snd
      | _ => none
  | .item place =>
      match value with
      | array items => items[place]?
      | _ => none

def isCell : Json → Bool
  | cell _ _ => true
  | _ => false

/-- What a path leads to. Every round takes a byte, so the length of the path bounds them. -/
def findAt : Nat → Json → Text → Except Text (Option Json)
  | 0, value, _ => .ok (some value)
  | fuel + 1, value, path =>
      if path.isEmpty then .ok (some value)
      else if value.isCell then .ok none
      else do
        match ← value.stepAt path with
        | none => return none
        | some (step, rest) =>
            match value.child? step with
            | none => return none
            | some child => findAt fuel child rest

/-- Gives a value to the first member of a name, or to a new one. -/
def putMember (key : Text) (child : Json) : List (JsonLabel × Json) → List (JsonLabel × Json)
  | [] => [({ key, written := quote key }, child)]
  | (label, value) :: members =>
      if label.key = key then (label, child) :: members
      else (label, value) :: putMember key child members

/-- Puts another value in the place of the one that a step leads to, or adds it. -/
def put (value : Json) (step : Step) (child : Json) : Json :=
  match step, value with
  | .member key, object members => object (putMember key child members)
  | .item place, array items => array (if place < items.length then items.set place child
      else items ++ [child])
  | _, value => value

def without (value : Json) : Step → Json
  | .member key =>
      match value with
      | object members => object (members.eraseP (fun (label, _) => label.key == key))
      | value => value
  | .item place =>
      match value with
      | array items => array (items.eraseIdx place)
      | value => value

/-- The list or the map that the rest of a path leads into, where there is nothing yet. -/
def ground? (path : Text) : Option Json :=
  if path.head? = some 46 then some (object [])
  else if (utf8 "[0]").isPrefixOf path then some (array [])
  else none

/-- Puts a leaf where a path leads: in the place of what is there if that is allowed, or as
something new if that is. Nothing if neither is the case. -/
def putAt (replaces creates : Bool) (leaf : Json) : Nat → Json → Text → Except Text (Option Json)
  | 0, _, _ => .ok none
  | fuel + 1, value, path =>
      if path.isEmpty then .ok (if replaces then some leaf else none)
      else if value.isCell then .ok none
      else do
        match ← value.stepAt path with
        | none => return none
        | some (step, rest) =>
            match value.child? step with
            | some child =>
                return (← putAt replaces creates leaf fuel child rest).map (value.put step)
            | none =>
                let isNext :=
                  match step, value with
                  | .item place, array items => place == items.length
                  | _, _ => true
                if !creates || !isNext then return none
                else if rest.isEmpty then return some (value.put step leaf)
                else
                  match ground? rest with
                  | none => return none
                  | some ground =>
                      return (← putAt replaces creates leaf fuel ground rest).map (value.put step)

/-- Takes away what a path leads to, unless that is everything. -/
def dropAt : Nat → Json → Text → Except Text (Option Json)
  | 0, _, _ => .ok none
  | fuel + 1, value, path => do
      match ← value.stepAt path with
      | none => return none
      | some (step, rest) =>
          match value.child? step with
          | none => return none
          | some child =>
              if rest.isEmpty then return some (value.without step)
              else return (← dropAt fuel child rest).map (value.put step)

def rooted (path : Text) : Except Text Text := if path.head? = some 36 then .ok path.tail
    else .error path

def find (value : Json) (path : Text) : Except Text (Option Json) := do
  let path ← rooted path
  findAt (path.length + 1) value path

def fullPath (path : Text) : Text :=
  if path.head? = some 36 then path
  else if path.head?.any isDigitByte then utf8 "$[" ++ path ++ [93]
  else if path.head? = some 91 then 36 :: path
  else utf8 "$." ++ path

mutual

/-- A value changed by another one: members of a map replace those of the same name, and are taken
away by nothing. -/
def patched (target : Json) : Json → Json
  | object changes =>
      match target with
      | object members =>
          let (members, added) :=
            patchedBy (members.map (fun (label, value) => (label, some value, false))) [] changes
          object (members.filterMap (fun (label, value, _) => value.map (label, ·)) ++ added)
      | _ => (object changes).withoutNulls
  | value => value

/-- Members that are changed one after the other, and those that are new. One that is settled does
not change again. -/
def patchedBy (members : List (JsonLabel × Option Json × Bool)) (added : List (JsonLabel × Json)) :
    List (JsonLabel × Json) → List (JsonLabel × Option Json × Bool) × List (JsonLabel × Json)
  | [] => (members, added)
  | (label, change) :: changes =>
      let before := members.takeWhile (fun (other, _) => other.key != label.key)
      match members.drop before.length with
      | [] =>
          patchedBy members (if change.isNull then added
            else added ++ [(label, change.withoutNulls)]) changes
      | (own, value, isSettled) :: after =>
          let next : Option Json × Bool :=
            if isSettled then (value, true)
            else if change.isNull then (none, true)
            else
              match value with
              | some (object members) => (some (patched (object members) change), !change.isObject)
              | value => (some (patched (value.getD .null) change), true)
          patchedBy (before ++ (own, next.1, next.2) :: after) added changes

end

end Json
end CodeAudit
