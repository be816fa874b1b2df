import CodeAudit.Fault
import CodeAudit.Store.Relation.Json.Path

/-!
Functions about JSON. A text that comes right from one of them stands for the value that it writes,
and any other text for itself.
-/
namespace CodeAudit

/-- A cell, and whether it comes right from a function that writes JSON. -/
structure Operand where
  cell : Cell
  isJson : Bool := false
deriving DecidableEq, Repr

namespace Operand

def written (operand : Operand) : Except EngineFault Text :=
  match operand.cell with
  | .null => .ok (utf8 "null")
  | .text t => .ok (if operand.isJson then t else Json.quote t)
  | .blob _ => .error .jsonBytes
  | cell => .ok cell.shown

end Operand

namespace Function

/-- The value that a cell writes; nothing if the cell is nothing. -/
def jsonOf (cell : Cell) : Except EngineFault (Option Json) :=
  if cell.isNull then .ok none
  else
    match Json.ofText? cell.shown.beforeNul with
    | some value => .ok (some value)
    | none => .error .malformedJson

def atPath (value : Json) (path : Cell) : Except EngineFault (Option Json) :=
  if path.isNull then .ok none else (value.find path.shown.beforeNul).mapError EngineFault.badPath

def valueAt (document : Cell) (path : Option Cell) : Except EngineFault (Option Json) := do
  match ← jsonOf document with
  | none => return none
  | some value =>
      match path with
      | none => return some value
      | some path => atPath value path

def jsonText (value : Option Json) : Cell :=
  (value.map (fun value => .text value.render)).getD .null

def jsonKind (document : Cell) (path : Option Cell) : Except EngineFault Cell := do
  return ((← valueAt document path).map (fun value => Cell.text (utf8 value.kind))).getD .null

/-- The number of items; zero for what is no list. -/
def jsonLength (document : Cell) (path : Option Cell) : Except EngineFault Cell := do
  return ((← valueAt document path).map (fun value =>
    match value with
    | .array items => Cell.integer (Int64.ofNat items.length)
    | _ => Cell.integer 0)).getD .null

/-- What paths lead to: one of them by itself, and several in a list. -/
def jsonExtract (operands : List Operand) : Except EngineFault Operand := do
  match operands.map Operand.cell with
  | document :: path :: paths =>
      match ← jsonOf document with
      | none => return { cell := .null }
      | some value =>
          if paths.isEmpty then
            let found ← atPath value path
            return { cell := (found.map Json.toCell).getD .null,
                     isJson := found.any Json.isContainer }
          else
            let found ← (path :: paths).mapM (atPath value)
            return { cell := .text (Json.array (found.map (fun value => value.getD .null))).render,
                     isJson := true }
  | _ => return { cell := .null }

def jsonAt (asCell : Bool) (document path : Cell) : Except EngineFault Cell := do
  match ← jsonOf document with
  | none => return .null
  | some value =>
      if path.isNull then return .null
      else
        let found ← (value.find (Json.fullPath path.shown.beforeNul)).mapError EngineFault.badPath
        return if asCell then (found.map Json.toCell).getD .null else jsonText found

def jsonArray (operands : List Operand) : Except EngineFault Cell := do
  return .text ([91] ++ Text.join [44] (← operands.mapM Operand.written) ++ [93])

/-- Labels and values by turns as the members of a map. -/
def jsonMembers : List Operand → Except EngineFault (List Text)
  | label :: value :: rest => do
      match label.cell with
      | .text t => return (Json.quote t ++ [58] ++ (← value.written)) :: (← jsonMembers rest)
      | _ => throw .jsonLabels
  | _ => .ok []

def jsonObject (operands : List Operand) : Except EngineFault Cell := do
  if operands.length % 2 = 1 then throw .jsonLabelsAlone
  return .text ([123] ++ Text.join [44] (← jsonMembers operands) ++ [125])

def jsonPutAll (replaces creates : Bool) (value : Json) : List Operand → Except EngineFault Json
  | path :: leaf :: rest => do
      if path.cell.isNull then jsonPutAll replaces creates value rest
      else
        let path ← (Json.rooted path.cell.shown.beforeNul).mapError EngineFault.badPath
        let written := (leaf.written.toOption).getD []
        let next ← (Json.putAt replaces creates (.cell leaf.cell written) (path.length + 1) value
          path).mapError
          EngineFault.badPath
        jsonPutAll replaces creates (next.getD value) rest
  | _ => .ok value

mutual

/-- Something inside of a value is a cell that JSON cannot write. -/
def holdsBytes : Json → Bool
  | .cell (.blob _) _ => true
  | .array items => anyHoldsBytes items
  | .object members => memberHoldsBytes members
  | _ => false

def anyHoldsBytes : List Json → Bool
  | [] => false
  | item :: items => holdsBytes item || anyHoldsBytes items

def memberHoldsBytes : List (JsonLabel × Json) → Bool
  | [] => false
  | (_, value) :: members => holdsBytes value || memberHoldsBytes members

end

/-- A value with others put where paths lead. What stands in the place of everything is itself. -/
def jsonPut (name : String) (replaces creates : Bool) (operands : List Operand) :
    Except EngineFault Operand := do
  match operands with
  | [] => return { cell := .null }
  | document :: rest =>
      if rest.length % 2 = 1 then throw (.jsonPairs name)
      match ← jsonOf document.cell with
      | none => return { cell := .null }
      | some value =>
          match ← jsonPutAll replaces creates value rest with
          | .cell cell written => return { cell, isJson := cell == .text written }
          | value =>
              if holdsBytes value then throw .jsonBytes
              return { cell := jsonText (some value), isJson := true }

/-- Takes away what paths lead to, one after the other. Whether everything goes away is told. -/
def jsonDropAll (value : Json) (isGone : Bool) : List Cell → Except EngineFault (Option Json)
  | [] => .ok (if isGone then none else some value)
  | path :: paths => do
      if path.isNull then return none
      let path ← (Json.rooted path.shown.beforeNul).mapError EngineFault.badPath
      if path.isEmpty then jsonDropAll value true paths
      else
        let next ← (Json.dropAt (path.length + 1) value path).mapError EngineFault.badPath
        jsonDropAll (next.getD value) isGone paths

/-- A value without what paths lead to. -/
def jsonDrop : List Cell → Except EngineFault Cell
  | [] => .ok .null
  | document :: paths => do
      match ← jsonOf document with
      | none => return .null
      | some value => return jsonText (← jsonDropAll value false paths)

def jsonPatch (document change : Cell) : Except EngineFault Cell := do
  match ← jsonOf document with
  | none => return .null
  | some value =>
      match ← jsonOf change with
      | none => return .null
      | some change => return .text (value.patched change).render

def jsonIsValid (document : Cell) : Cell :=
  .ofBool (!document.isNull && (Json.ofText? document.shown.beforeNul).isSome)

end Function
end CodeAudit
