import CodeAudit.Text

/-!
Documents: trees of scalars, sequences and mappings. A scalar is its text and nothing else, so that
a number and a quoted text with the same letters are the same scalar.
-/
namespace CodeAudit

inductive Document where
  | null
  | scalar (text : Text)
  | sequence (items : List Document)
  | mapping (fields : List (Text × Document))
deriving Repr

namespace Document

/-- The value of a key; nothing for a document that is no mapping. -/
def field? (key : String) : Document → Option Document
  | mapping fields => (fields.find? (fun f => f.1 = utf8 key)).map Prod.snd
  | _ => none

def scalar? : Document → Option Text
  | scalar text => some text
  | _ => none

def isNull : Document → Bool
  | null => true
  | _ => false

/-- The value of a digit in bases up to sixteen. -/
def digitValue (b : UInt8) : Nat :=
  if isDigitByte b then b.toNat - 48
  else if 97 ≤ lowerByte b && lowerByte b ≤ 102 then (lowerByte b).toNat - 87
  else 16

/-- A number in a base, from one digit or more and nothing else. -/
def ofDigits? (base : Nat) (digits : Text) : Option Nat :=
  if digits.isEmpty || digits.any (fun b => base ≤ digitValue b) then none
  else some (digits.foldl (fun n b => n * base + digitValue b) 0)

/-- An unsigned number: hexadecimal after `0x`, octal after another leading zero, else decimal.
Blanks may follow. -/
def unsigned? (text : Text) : Option Nat :=
  let unsignedText := if text.head? = some 43 then text.tail else text
  match Text.dropTrailingBlanks unsignedText with
  | 48 :: x :: rest =>
      if x = 120 ∨ x = 88 then ofDigits? 16 rest else ofDigits? 8 (x :: rest)
  | digits => ofDigits? 10 digits

/-- A scalar that is an unsigned number of 32 bits. -/
def uint32? (d : Document) : Option UInt32 := do
  let n ← unsigned? (← d.scalar?)
  if n < UInt32.size then some n.toUInt32 else none

end Document

/-- What is found where a document is looked for. -/
inductive DocumentFile where
  | missing
  /-- A text that is no document. -/
  | broken
  | parsed (document : Document)
deriving Repr

end CodeAudit
