import CodeAudit.Store.Relation.Arithmetic

/-!
What texts and bytes consist of: the characters of a text, however they are written, and single
bytes.
-/
namespace CodeAudit

/-- Adds a byte to the last of some characters, which come in reverse, or starts another one with
it. -/
def addByte (characters : List Text) (b : UInt8) : List Text :=
  match characters with
  | last :: before =>
      if 128 ≤ b ∧ b < 192 ∧ last.head?.any (192 ≤ ·) then (last ++ [b]) :: before
      else [b] :: characters
  | [] => [[b]]

def characters (t : Text) : List Text := (t.foldl addByte []).reverse

namespace Cell

/-- What a cell consists of: the bytes of one of bytes, the characters of any other up to its first
NUL. -/
def units : Cell → List Text
  | .blob bytes => bytes.map (fun b => [b])
  | cell => characters cell.shown.beforeNul

def ofUnits (cell : Cell) (units : List Text) : Cell :=
  match cell with
  | .blob [] => .null
  | .blob _ => .blob units.flatten
  | _ => .text units.flatten

end Cell
end CodeAudit
