import CodeAudit.Fault
import CodeAudit.Store.Image.Page

/-!
Write-ahead logs. A log lists pages that are to be put over those of a file. Each entry carries sums
over all that comes before it; the log counts up to the last entry that ends a change and before the
first one whose sums do not fit.
-/
namespace CodeAudit
namespace WriteAheadLog

structure Entry where
  page : Nat
  /-- How many pages the file has after the change that ends here; zero if none ends here. -/
  count : Nat
  contents : Text

/-- Which of the bytes of a word comes first. -/
def wordOf (isHighFirst : Bool) (a b c d : UInt8) : UInt32 :=
  let ordered := if isHighFirst then [a, b, c, d] else [d, c, b, a]
  ordered.foldl (fun n x => n * 256 + x.toUInt32) 0

/-- Two sums over the words of a text, which are taken in pairs. -/
def sums (isHighFirst : Bool) : Text → UInt32 × UInt32 → UInt32 × UInt32
  | a :: b :: c :: d :: e :: f :: g :: h :: rest, (s, t) =>
      let s := s + wordOf isHighFirst a b c d + t
      sums isHighFirst rest (s, t + wordOf isHighFirst e f g h + s)
  | _, pair => pair

/-- The sums at a position. -/
def sumsAt (log : Octets) (position : Nat) : UInt32 × UInt32 :=
  (UInt32.ofNat (log.number 4 position), UInt32.ofNat (log.number 4 (position + 4)))

def isHighFirst (log : Octets) : Bool := log.octet 3 % 2 == 1

/-- The entries from a position on that are in order. They repeat two words of the heading. -/
def entriesFrom (log : Octets) (size : Nat) : Nat → Nat → UInt32 × UInt32 → List Entry
  | 0, _, _ => []
  | fuel + 1, position, before =>
      let page := log.number 4 position
      let contents := log.slice (position + 24) size
      let now := sums (isHighFirst log) (log.slice position 8 ++ contents) before
      if page == 0 || log.slice (position + 8) 8 != log.slice 16 8 ||
        sumsAt log (position + 16) != now then []
      else
        { page, count := log.number 4 (position + 4), contents } ::
          entriesFrom log size fuel (position + 24 + size) now

/-- The file with what the log lists put over it. A log of another version is refused, and one whose
heading is not in order is empty. -/
def applied (log : Octets) (file : Octets) : Except EngineFault Octets :=
  let size := log.number 4 8
  let before := sums (isHighFirst log) (log.slice 0 24) (0, 0)
  if log.length ≤ 32 || log.number 4 0 / 2 != 0x377f0682 / 2 || !Pages.isSize size ||
    sumsAt log 24 != before then
    .ok file
  else if log.number 4 4 ≠ 3007000 then .error .cannotOpen
  else
    let entries := entriesFrom log size ((log.length - 32) / (size + 24)) 32 before
    match entries.reverse.dropWhile (fun entry => entry.count == 0) with
    | [] => .ok file
    | last :: earlier =>
        let put :=
          (last :: earlier).map (fun entry => ((entry.page - 1) * size, entry.contents.toArray))
        .ok { file with length := last.count * size, pieces := put ++ file.pieces }

end WriteAheadLog
end CodeAudit
