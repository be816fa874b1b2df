import CodeAudit.Text.Unicode

/-!
Patterns that texts are held against, code point by code point. There are two ways of writing them:
one with `%` and `_` and a mark that takes their meaning away, without regard to the case of
letters, and one with `*`, `?` and sets in brackets.
-/
namespace CodeAudit

inductive Pattern.Item where
  /-- Any code points, or none. -/
  | many
  | one
  | point (n : Nat)
  /-- A code point inside one of some ranges, or outside of all. -/
  | set (outside : Bool) (ranges : List (Nat × Nat))
deriving DecidableEq, Repr

abbrev Pattern := List Pattern.Item

namespace Pattern

def lowerPoint (n : Nat) : Nat := if 65 ≤ n ∧ n ≤ 90 then n + 32 else n

def Item.admits : Item → Nat → Bool
  | many, _ | one, _ => true
  | point n, m => n == m
  | set outside ranges, m => ranges.any (fun (low, high) => low ≤ m && m ≤ high) != outside

def fits : Pattern → List Nat → Bool
  | [], points => points.isEmpty
  | .many :: items, points => (List.range (points.length + 1)).any
      (fun n => fits items (points.drop n))
  | item :: items, points =>
      match points with
      | [] => false
      | n :: rest => item.admits n && fits items rest

/-- A pattern with `%` and `_`. Nothing fits if the text ends with the mark. -/
def ofLike? (mark : Option Nat) : List Nat → Option Pattern
  | [] => some []
  | n :: rest =>
      if some n = mark then
        match rest with
        | next :: rest => (ofLike? mark rest).map (.point (lowerPoint next) :: ·)
        | [] => none
      else
        let item : Item := if n = 37 then .many else if n = 95 then .one else .point (lowerPoint n)
        (ofLike? mark rest).map (item :: ·)

/-- The ranges of a set up to its closing bracket, and what follows. -/
def rangesOf? (prior : Option Nat) : List Nat → Option (List (Nat × Nat) × List Nat)
  | [] => none
  | n :: rest =>
      let single : Option (List (Nat × Nat) × List Nat) :=
        (rangesOf? (some n) rest).map (fun (ranges, rest) => ((n, n) :: ranges, rest))
      if n = 93 then some ([], rest)
      else if n = 45 then
        match prior, rest with
        | some low, high :: more =>
            if high = 93 then single
            else (rangesOf? none more).map (fun (ranges, rest) => ((low, high) :: ranges, rest))
        | _, _ => single
      else single

/-- A set after its opening bracket, and what follows. A closing bracket at its front belongs to
it. -/
def setOf? (points : List Nat) : Option (Item × List Nat) := do
  let outside := points.head? == some 94
  let points := if outside then points.drop 1 else points
  let closing := points.head? == some 93
  let (ranges, rest) ← rangesOf? none (if closing then points.drop 1 else points)
  return (.set outside (if closing then (93, 93) :: ranges else ranges), rest)

/-- A pattern with `*`, `?` and sets. Nothing fits if a set is not closed. Every item takes a code
point, so their number bounds the rounds. -/
def ofGlob? : Nat → List Nat → Option Pattern
  | _, [] => some []
  | 0, _ => none
  | fuel + 1, n :: rest =>
      if n = 91 then do
        let (item, rest) ← setOf? rest
        return item :: (← ofGlob? fuel rest)
      else
        let item : Item := if n = 42 then .many else if n = 63 then .one else .point n
        (ofGlob? fuel rest).map (item :: ·)

def isLike (mark : Option Nat) (pattern text : Text) : Bool :=
  match ofLike? mark pattern.beforeNul.points with
  | some pattern => pattern.fits (text.beforeNul.points.map lowerPoint)
  | none => false

def isGlob (pattern text : Text) : Bool :=
  let points := pattern.beforeNul.points
  match ofGlob? points.length points with
  | some pattern => pattern.fits text.beforeNul.points
  | none => false

end Pattern
end CodeAudit
