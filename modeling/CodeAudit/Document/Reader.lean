import CodeAudit.Document
import CodeAudit.Text.Unicode

/-!
Reads documents from their flow form with quoted texts: `{"key": [1, "two", null]}`. A text of
spaces, tabs and line ends alone is the null document. `true`, `false` and numbers are scalars with
the letters they are written with.
-/
namespace CodeAudit
namespace Document

def hexUnit? (t : Text) : Option (Nat × Text) := do
  if t.length < 4 then none
  else some (← ofDigits? 16 (t.take 4), t.drop 4)

/-- The rest of a pair of escapes that stand for one code point, after the first of them. -/
def pairedPoint (high : Nat) (rest : Text) : Nat × Text :=
  if 0xD800 ≤ high ∧ high < 0xDC00 then
    match rest with
    | 92 :: 117 :: more =>
        match hexUnit? more with
        | some (low, more) =>
            if 0xDC00 ≤ low ∧ low < 0xE000 then
              (0x10000 + (high - 0xD800) * 1024 + (low - 0xDC00), more)
            else (high, rest)
        | none => (high, rest)
    | _ => (high, rest)
  else (high, rest)

/-- What an escape stands for, from the letter after the backslash on. -/
def escape? (letter : UInt8) (rest : Text) : Option (Text × Text) :=
  match letter with
  | 34 => some ([34], rest)
  | 92 => some ([92], rest)
  | 47 => some ([47], rest)
  | 98 => some ([8], rest)
  | 102 => some ([12], rest)
  | 110 => some ([10], rest)
  | 114 => some ([13], rest)
  | 116 => some ([9], rest)
  | 117 => do
      let (high, rest) ← hexUnit? rest
      let (point, rest) := pairedPoint high rest
      some (Text.ofPoint point, rest)
  | _ => none

/-- A quoted text after its opening quote. Every round takes a byte, so the length of the input
bounds them. -/
def quoted? : Nat → Text → Text → Option (Text × Text)
  | 0, _, _ => none
  | fuel + 1, done, t =>
      match t with
      | [] => none
      | 34 :: rest => some (done.reverse, rest)
      | 92 :: letter :: rest => do
          let (bytes, rest) ← escape? letter rest
          quoted? fuel (bytes.reverse ++ done) rest
      | b :: rest => if b < 32 then none else quoted? fuel (b :: done) rest

def isSpace (b : UInt8) : Bool := b == 32 || b == 9 || b == 10 || b == 13

def skipSpace (t : Text) : Text := t.dropWhile isSpace

def isPlainByte (b : UInt8) : Bool := isLetterByte b || isDigitByte b || b == 43 ||
    b == 45 || b == 46

/-- An optional minus sign, digits without a superfluous zero, and optional fraction and
exponent. -/
def isNumberLiteral (t : Text) : Bool :=
  let t := if t.head? = some 45 then t.tail else t
  let whole := t.takeWhile isDigitByte
  let rest := t.dropWhile isDigitByte
  let afterFraction : Option Text :=
    match rest with
    | 46 :: r => if (r.takeWhile isDigitByte).isEmpty then none else some (r.dropWhile isDigitByte)
    | r => some r
  let exponent (r : Text) : Bool :=
    match r with
    | [] => true
    | e :: r =>
        (e == 101 || e == 69) &&
          match (if r.head? = some 43 || r.head? = some 45 then r.tail else r) with
          | [] => false
          | digits => digits.all isDigitByte
  !whole.isEmpty && (whole.length == 1 || whole.head? != some 48) && afterFraction.any exponent

/-- A word without quotes. -/
def ofPlain? (word : Text) : Option Document :=
  if word = utf8 "null" then some null
  else if word = utf8 "true" ∨ word = utf8 "false" ∨ isNumberLiteral word then some (scalar word)
  else none

mutual

/-- A document at the front of a text, and what follows it. -/
def value? : Nat → Text → Option (Document × Text)
  | 0, _ => none
  | fuel + 1, t =>
      match skipSpace t with
      | [] => none
      | 34 :: rest => do
          let (text, rest) ← quoted? (rest.length + 1) [] rest
          some (scalar text, rest)
      | 91 :: rest =>
          match skipSpace rest with
          | 93 :: rest => some (sequence [], rest)
          | rest => items? fuel [] rest
      | 123 :: rest =>
          match skipSpace rest with
          | 125 :: rest => some (mapping [], rest)
          | rest => fields? fuel [] rest
      | t => do
          let document ← ofPlain? (t.takeWhile isPlainByte)
          some (document, t.dropWhile isPlainByte)

/-- The items of a sequence from one of them on. -/
def items? : Nat → List Document → Text → Option (Document × Text)
  | 0, _, _ => none
  | fuel + 1, done, t => do
      let (item, rest) ← value? fuel t
      match skipSpace rest with
      | 44 :: rest => items? fuel (item :: done) rest
      | 93 :: rest => some (sequence (item :: done).reverse, rest)
      | _ => none

/-- The fields of a mapping from one of them on. -/
def fields? : Nat → List (Text × Document) → Text → Option (Document × Text)
  | 0, _, _ => none
  | fuel + 1, done, t => do
      match skipSpace t with
      | 34 :: rest =>
          let (key, rest) ← quoted? (rest.length + 1) [] rest
          match skipSpace rest with
          | 58 :: rest =>
              let (document, rest) ← value? fuel rest
              match skipSpace rest with
              | 44 :: rest => fields? fuel ((key, document) :: done) rest
              | 125 :: rest => some (mapping ((key, document) :: done).reverse, rest)
              | _ => none
          | _ => none
      | _ => none

end

/-- The document that a text is, if it is one. -/
def read? (t : Text) : Option Document :=
  if (skipSpace t).isEmpty then some null
  else
    match value? (2 * t.length + 1) t with
    | some (document, rest) => if (skipSpace rest).isEmpty then some document else none
    | none => none

end Document

def DocumentFile.ofText (t : Text) : DocumentFile :=
  match Document.read? t with
  | some document => .parsed document
  | none => .broken

end CodeAudit
