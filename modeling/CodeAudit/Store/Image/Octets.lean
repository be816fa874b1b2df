import CodeAudit.Text

/-!
Bytes by their positions. What is put over a file later hides what was there, and where nothing was
put there are zeros.
-/
namespace CodeAudit

structure Octets where
  given : Array UInt8 := #[]
  length : Nat := 0
  /-- What was put over it and where, the last one first. -/
  pieces : List (Nat × Array UInt8) := []

namespace Octets

def ofText (t : Text) : Octets := { given := t.toArray, length := t.length }

def octet (octets : Octets) (position : Nat) : Nat :=
  match octets.pieces.find? (fun (start, piece) => start ≤ position &&
    position < start + piece.size) with
  | some (start, piece) => (piece.getD (position - start) 0).toNat
  | none => (octets.given.getD position 0).toNat

/-- The number at a position with the high byte first. -/
def number (octets : Octets) (width position : Nat) : Nat :=
  (List.range width).foldl (fun n k => n * 256 + octets.octet (position + k)) 0

def slice (octets : Octets) (position length : Nat) : Text :=
  (List.range length).map (fun k => (octets.octet (position + k)).toUInt8)

/-- Up to one byte is taken for nothing at all. -/
def isBlank (octets : Octets) : Bool := octets.length ≤ 1

def put (octets : Octets) (position : Nat) (t : Text) : Octets :=
  { octets with
    length := max octets.length (position + t.length)
    pieces := (position, t.toArray) :: octets.pieces }

def cut (octets : Octets) (length : Nat) : Octets :=
  { given := octets.given.extract 0 length
    length
    pieces := octets.pieces.map (fun (start, piece) => (start, piece.extract 0 (length - start))) }

/-- Cut or drawn out to a number of pages, but not drawn out by less than a page. -/
def resize (octets : Octets) (size count : Nat) : Octets :=
  if size * count < octets.length then octets.cut (size * count)
  else if octets.length + size ≤ size * count then { octets with length := size * count }
  else octets

end Octets
end CodeAudit
