import CodeAudit.Store.Image.Page

/-!
Journals of changes that were not brought to an end. A journal tells how many pages a file had and
what some of them held; undoing puts that back. It is followed as far as it goes: to where it is cut
off or a sum does not fit.
-/
namespace CodeAudit
namespace Journal

def signature : Text := [0xd9, 0xd5, 0x05, 0xf9, 0x20, 0xa1, 0x63, 0xd7]

/-- The page on which files are locked, which is never used. -/
def lockPage (size : Nat) : Nat := 0x40000000 / size + 1

/-- What guards a page: the sum of each two-hundredth byte of it, counted from its end. -/
def sumAt (journal : Octets) (size seed position : Nat) : Nat :=
  (List.range ((size - 1) / 200)).foldl
    (fun n k => n + journal.octet (position + size - 200 * (k + 1))) seed % UInt32.size

/-- Puts back some pages from a position on. The answer tells where they end, unless the journal
ends before. A page that the file did not have is passed over. -/
def undoPages (journal : Octets) (size limit seed : Nat) : Nat → Nat → Octets → Octets × Option Nat
  | 0, position, file => (file, some position)
  | count + 1, position, file =>
      let page := journal.number 4 position
      let next := position + size + 8
      if journal.length < next - 4 || page == 0 || page == lockPage size then (file, none)
      else if limit < page then undoPages journal size limit seed count next file
      else if journal.length < next ||
          journal.number 4 (next - 4) != sumAt journal size seed (position + 4) then (file, none)
      else
        undoPages journal size limit seed count next
          (file.put ((page - 1) * size) (journal.slice (position + 4) size))

/-- Puts back what the parts of a journal tell. A part begins with a block of its own at a multiple
of the size of a block, which tells how many pages follow; the largest number stands for as many as
there are. -/
def undoParts (journal : Octets) (size block limit : Nat) : Nat → Nat → Octets → Octets
  | 0, _, file => file
  | fuel + 1, position, file =>
      let position := (position + block - 1) / block * block
      if journal.length < position + block || journal.slice position 8 != signature then file
      else
        let told := journal.number 4 (position + 8)
        let count := if told + 1 = UInt32.size then (journal.length - block) / (size + 8) else told
        match undoPages journal size limit (journal.number 4 (position + 12)) count
          (position + block) file with
        | (file, none) => file
        | (file, some position) => undoParts journal size block limit fuel position file

/-- The sum that goes with a name: that of its bytes, of which those from 128 on count less by
256. -/
def nameSum (name : Text) : Nat :=
  name.foldl (fun n b => n + if b < 128 then b.toNat else b.toNat + (UInt32.size - 256)) 0 %
    UInt32.size

/-- The journal ends with the name of another one that it shares its fate with. -/
def isShared (journal : Octets) : Bool :=
  let last := journal.length - 16
  let length := journal.number 4 last
  if journal.length < 16 || length == 0 || min 512 last < length ||
    journal.slice (last + 8) 8 != signature then false
  else
    let name := journal.slice (last - length) length
    journal.number 4 (last + 4) == nameSum name && name.head? != some 0

/-- The file with what the journal tells put back. `pageSize` is the size of pages where the journal
tells none. The others that a journal names are gone, and so it is of no use if it names one. -/
def undone (journal : Octets) (pageSize : Nat) (file : Octets) : Octets :=
  let block := journal.number 4 20
  let told := journal.number 4 24
  let size := if told = 0 then pageSize else told
  let isBlockSize := ((List.range 12).map (32 <<< ·)).contains block
  if journal.length < 512 || isShared journal || journal.slice 0 8 != signature then file
  else if !isBlockSize || !Pages.isSize size then file
  else
    let limit := journal.number 4 16
    undoParts journal size block limit journal.length 0 (file.resize size limit)

end Journal
end CodeAudit
