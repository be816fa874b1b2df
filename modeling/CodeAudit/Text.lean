/-!
Text is a sequence of bytes. Letters, digits and blanks are the ASCII ones; every other byte is
opaque, so the functions here never look inside a multi-byte character.
-/
namespace CodeAudit

/-- Text in any encoding. `<` on texts is byte order. -/
abbrev Text := List UInt8

/-- The UTF-8 bytes of a string. -/
def utf8 (s : String) : Text := s.toList.flatMap String.utf8EncodeChar

/-- Horizontal tab, line feed, vertical tab, form feed, carriage return and space. -/
def isBlankByte (b : UInt8) : Bool := b == 32 || (9 ≤ b && b ≤ 13)

def isUpperByte (b : UInt8) : Bool := 65 ≤ b && b ≤ 90

def isLowerByte (b : UInt8) : Bool := 97 ≤ b && b ≤ 122

def isLetterByte (b : UInt8) : Bool := isUpperByte b || isLowerByte b

def isDigitByte (b : UInt8) : Bool := 48 ≤ b && b ≤ 57

def lowerByte (b : UInt8) : UInt8 := if isUpperByte b then b + 32 else b

def upperByte (b : UInt8) : UInt8 := if isLowerByte b then b - 32 else b

namespace Text

def newline : UInt8 := 10

def lower (t : Text) : Text := t.map lowerByte

/-- A text without a byte other than blanks; the empty text is blank. -/
def isBlank (t : Text) : Bool := t.all isBlankByte

def dropTrailingBlanks (t : Text) : Text := (t.reverse.dropWhile isBlankByte).reverse

/-- Drops the blanks at both ends. -/
def trim (t : Text) : Text := dropTrailingBlanks (t.dropWhile isBlankByte)

/-- What follows the last occurrence of a byte, or the whole text when there is none. -/
def afterLast (mark : UInt8) (t : Text) : Text :=
  (t.reverse.takeWhile (· != mark)).reverse

/-- The bytes before the first NUL. -/
def beforeNul (t : Text) : Text := t.takeWhile (· != 0)

/-- The texts in order, with a separator between every two. -/
def join (separator : Text) : List Text → Text
  | [] => []
  | [t] => t
  | t :: u :: rest => t ++ separator ++ join separator (u :: rest)

/-- Decimal digits without a leading zero. -/
def ofNat (n : Nat) : Text := (Nat.toDigits 10 n).map (fun c => c.toNat.toUInt8)

/-- Decimal digits after a minus sign for a negative number. -/
def ofInt (i : Int) : Text := if i < 0 then 45 :: ofNat i.natAbs else ofNat i.natAbs

/-- Two lower-case hexadecimal digits. -/
def ofByte (b : UInt8) : Text :=
  [b / 16, b % 16].map (fun d => if d < 10 then 48 + d else 87 + d)

/-- Some occurrence of a text inside another; the empty text occurs everywhere. -/
def occursIn (needle : Text) : Text → Bool
  | [] => needle.isEmpty
  | b :: rest => needle.isPrefixOf (b :: rest) || needle.occursIn rest

end Text
end CodeAudit
