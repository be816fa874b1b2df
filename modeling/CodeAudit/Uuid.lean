import CodeAudit.Text

/-! Unique identifiers of sixteen bytes in their canonical form of thirty-six characters. -/
namespace CodeAudit
namespace Uuid

/-- Marks sixteen random bytes as a random identifier: version four in the seventh, the variant in
the ninth. -/
def stamp (bytes : List UInt8) : List UInt8 :=
  (bytes.modify 6 (fun b => b &&& 0x0F ||| 0x40)).modify 8 (fun b => b &&& 0x3F ||| 0x80)

/-- Two digits a byte, in groups of four, two, two, two and six bytes. -/
def format (bytes : List UInt8) : Text :=
  bytes.zipIdx.flatMap fun (b, i) =>
    (if i ∈ [4, 6, 8, 10] then utf8 "-" else []) ++ Text.ofByte b

end Uuid
end CodeAudit
