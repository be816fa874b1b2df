import CodeAudit.Text

/-!
Code points in texts of one and of two bytes a unit. Reading is lenient: every text has code points,
and a stray byte stands for the code point with its number.
-/
namespace CodeAudit
namespace Text

/-- The bytes of a code point, also of one that stands alone from a surrogate pair. -/
def ofPoint (n : Nat) : Text :=
  let tail (shift : Nat) : UInt8 := (128 + (n >>> shift) % 64).toUInt8
  if n < 128 then [n.toUInt8]
  else if n < 2048 then [(192 + n / 64).toUInt8, tail 0]
  else if n < 65536 then [(224 + n / 4096).toUInt8, tail 6, tail 0]
  else [(240 + n / 262144 % 8).toUInt8, tail 12, tail 6, tail 0]

/-- The bits that a byte brings to a code point that it begins. -/
def leadBits (b : UInt8) : Nat :=
  if b < 224 then b.toNat % 32
  else if b < 240 then b.toNat % 16
  else if b < 248 then b.toNat % 8
  else if b < 252 then b.toNat % 4
  else if b < 254 then b.toNat % 2
  else 0

/-- A code point that was begun and is over: the replacement character for one that was written too
long, for half a surrogate pair and for the two last ones of the first plane. -/
def settlePoint (n : Nat) : Nat :=
  if n < 128 ∨ (0xD800 ≤ n ∧ n < 0xE000) ∨ n = 0xFFFE ∨ n = 0xFFFF then 0xFFFD else n

/-- The code points of a text, of which one may have been begun, in 32 bits each. -/
def pointsFrom (begun : Option Nat) : Text → List Nat
  | [] => begun.toList.map settlePoint
  | b :: rest =>
      if 128 ≤ b ∧ b < 192 then
        match begun with
        | some n => pointsFrom (some ((n * 64 + b.toNat % 64) % 0x100000000)) rest
        | none => b.toNat :: pointsFrom none rest
      else
        begun.toList.map settlePoint ++
          if b < 128 then b.toNat :: pointsFrom none rest else pointsFrom (some (leadBits b)) rest

def points (t : Text) : List Nat := pointsFrom none t

/-- The code point that comes back from units of two bytes: twenty bits of it fit into a pair of
them. -/
def foldPoint (n : Nat) : Nat := if n < 0x10000 then n else 0x10000 + (n - 0x10000) % 0x100000

/-- What a text reads as after it was kept in units of two bytes. -/
def throughPairs (t : Text) : Text := t.points.flatMap (fun n => ofPoint (foldPoint n))

/-- The units of two bytes in a text; an odd byte at the end is dropped. -/
def pairUnits (highFirst : Bool) : Text → List Nat
  | a :: b :: rest =>
      (if highFirst then a.toNat * 256 + b.toNat else b.toNat * 256 + a.toNat) ::
        pairUnits highFirst rest
  | _ => []

/-- The code points of units: two units make one if the first is half a surrogate pair. -/
def pointsOfUnits : List Nat → List Nat
  | u :: v :: rest =>
      if 0xD800 ≤ u ∧ u < 0xE000 then
        (v % 1024 + u % 64 * 1024 + (u / 64 % 16 * 64 + 64) * 1024) :: pointsOfUnits rest
      else u :: pointsOfUnits (v :: rest)
  | [u] => [u]
  | [] => []

/-- A text that is kept in units of two bytes. -/
def ofPairs (t : Text) (highFirst : Bool) : Text :=
  (pointsOfUnits (pairUnits highFirst t)).flatMap ofPoint

end Text

/-- How texts are kept: byte for byte, or in units of two bytes. -/
inductive TextEncoding where
  | bytes
  | pairs (highFirst : Bool)
deriving DecidableEq, Repr

namespace TextEncoding

/-- The text that is kept as some bytes. -/
def decode : TextEncoding → Text → Text
  | bytes, t => t
  | pairs highFirst, t => t.ofPairs highFirst

/-- What a text reads as once it was kept; it is kept up to its first NUL. -/
def keep : TextEncoding → Text → Text
  | bytes, t => t.beforeNul
  | pairs _, t => t.beforeNul.throughPairs

end TextEncoding
end CodeAudit
