import CodeAudit.Store.Relation
import CodeAudit.Store.Relation.Function.Json
import CodeAudit.Store.Relation.Json.Visit

/-!
Functions that have rows: one for everything inside of JSON, or only for what stands right inside of
it.
-/
namespace CodeAudit
namespace Function

/-- What the rows of such a function hold. What the function is called with is there, but not
seen. -/
def tableOf (name : Text) : Relation :=
  let seen : List Column :=
    ["key", "value", "type", "atom", "id", "parent", "fullkey", "path"].map
      (fun name => { name := utf8 name })
  let unseen : List Column :=
    ["json", "root"].map (fun name => { name := utf8 name, hidden := true })
  { name, columns := seen ++ unseen }

def table? (name : Text) : Option Relation :=
  if ["json_each", "json_tree"].any (fun known => utf8 known == name.lower) then some (tableOf name)
  else none

def mostTableOperands : Nat := 2

/-- A value in the row of such a function is JSON. -/
def isDocument (row : Row) (place : Nat) : Bool :=
  place == 1 && [Cell.text (utf8 "array"), Cell.text (utf8 "object")].contains
    (row.cells.getD 2 .null)

def visitRow (document root : Cell) (visit : Json.Visit) (place : Nat) : Row :=
  let value := visit.value.toCell
  { number := Int64.ofNat place
    cells :=
      [visit.key, value, .text (utf8 visit.value.kind), if visit.value.isContainer then .null
        else value,
        .integer (Int64.ofNat visit.number),
          (visit.parent.map (fun n => .integer (Int64.ofNat n))).getD .null,
        .text visit.path, .text visit.around, document, root] }

/-- The values that the rows are for, from what a path leads to. Only what stands inside of
everything belongs to something there. -/
def visited (isTree : Bool) (root : Text) (start : Json.Visit) : List Json.Visit :=
  if isTree then
    let first :=
      { start with parent := none, key := if start.value.isContainer then start.key else .null }
    (Json.visits start.value.count start).drop 1 |> (first :: ·)
  else if start.value.isContainer then
    (Json.inside { start with path := root }).map (fun visit => { visit with parent := none })
  else [{ start with key := .null, parent := none, path := root, around := root }]

def tableRows (name : Text) (operands : List Cell) : Except EngineFault (List Row) := do
  let document := operands.head?.getD .null
  let root := operands[1]?.getD (.text [36])
  match ← jsonOf document with
  | none => return []
  | some value =>
      if root.isNull then return []
      let text := root.shown.beforeNul
      let path ← (Json.rooted text).mapError EngineFault.badPath
      let top : Json.Visit := { value, number := 0, path := [36], around := [36] }
      match ← (Json.visitAt (path.length + 1) top path).mapError EngineFault.badPath with
      | none => return []
      | some start =>
          let visits := visited (name.lower == utf8 "json_tree") text start
          return visits.zipIdx.map (fun (visit, place) =>
            visitRow (.text document.shown.beforeNul) (.text text) visit place)

end Function
end CodeAudit
