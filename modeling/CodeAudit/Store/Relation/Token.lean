import CodeAudit.Document

/-!
The words, names, literals and marks that a declaration is written with. Blanks and comments stand
between them; a comment runs from two dashes to the end of the line, or from `/*` to `*/`.
-/
namespace CodeAudit

inductive Token.Kind where
  /-- Without quotes: a keyword, or a name. -/
  | word
  /-- A name in brackets or backquotes. -/
  | name
  /-- In double quotes: a name, or a text where there is nothing of the name. -/
  | quoted
  | literal | bytes | number | mark
  /-- What is to be given a value later. -/
  | parameter
  /-- Nothing that can be written. -/
  | illegal
deriving DecidableEq, Repr

structure Token where
  kind : Token.Kind
  /-- The text of the token without its quotes. -/
  text : Text
  /-- What is read from here on, the token first. -/
  ahead : Text := []
  /-- The token as it is written. -/
  raw : Text := []
deriving DecidableEq, Repr

namespace Token

def isWordByte (b : UInt8) : Bool :=
  isLetterByte b || isDigitByte b || b == 95 || b == 36 || 128 ≤ b

/-- The text up to a closing quote, which stands for itself where it is written twice, and what
follows. -/
def quotedBy (quote : UInt8) : Text → Option (Text × Text)
  | [] => none
  | b :: rest =>
      if b = quote then
        match rest with
        | c :: more => if c = quote then (quotedBy quote more).map (fun (t, r) => (quote :: t, r))
            else some ([], rest)
        | [] => some ([], [])
      else (quotedBy quote rest).map (fun (t, r) => (b :: t, r))

def afterComment : Text → Text
  | 42 :: 47 :: rest => rest
  | _ :: rest => afterComment rest
  | [] => []

/-- The bytes that pairs of hexadecimal digits stand for. -/
def hexBytes : Text → Text
  | a :: b :: rest => (Document.digitValue a * 16 + Document.digitValue b).toUInt8 :: hexBytes rest
  | _ => []

/-- The end of a number: digits, a fraction and an exponent. -/
def numberLength (t : Text) : Nat :=
  let whole := t.takeWhile isDigitByte
  let rest := t.drop whole.length
  let fraction : Nat :=
    match rest with
    | 46 :: digits => (digits.takeWhile isDigitByte).length + 1
    | _ => 0
  let exponent : Nat :=
    match rest.drop fraction with
    | e :: sign :: digits =>
        if lowerByte e ≠ 101 then 0
        else if sign = 43 ∨ sign = 45 then
          if (digits.takeWhile isDigitByte).isEmpty then 0
          else (digits.takeWhile isDigitByte).length + 2
        else ((sign :: digits).takeWhile isDigitByte).length +
          if ((sign :: digits).takeWhile isDigitByte).isEmpty then 0 else 1
    | _ => 0
  whole.length + fraction + exponent

/-- The length of a number in hexadecimal digits, which follow a zero and an x. -/
def hexLength (t : Text) : Nat :=
  match t with
  | 48 :: x :: rest =>
      let digits := rest.takeWhile (fun b => Document.digitValue b < 16)
      if lowerByte x = 120 ∧ !digits.isEmpty then digits.length + 2 else 0
  | _ => 0

def marks : Text := utf8 "()+-*/%=<>,;.&|~"

def pairs : List Text := ["||", "<=", ">=", "<>", "!=", "==", "<<", ">>", "->"].map utf8

/-- A token whose end is a closing quote. Without one nothing can be written so. -/
def untilQuote (kind : Kind) (quote : UInt8) (rest : Text) : Kind × Text × Text :=
  match quotedBy quote rest with
  | some (text, rest) => (kind, text, rest)
  | none => (.illegal, [], [])

/-- Bytes as pairs of hexadecimal digits after the opening quote. Other digits end with the next
quote. -/
def untilBytes (rest : Text) : Kind × Text × Text :=
  let digits := rest.takeWhile (fun b => Document.digitValue b < 16)
  let after := rest.drop digits.length
  if after.head? = some 39 ∧ digits.length % 2 = 0 then (.bytes, hexBytes digits, after.tail)
  else (.illegal, [], (after.dropWhile (· != 39)).tail)

def untilNumber (t : Text) : Kind × Text × Text :=
  let length := max 1 (max (hexLength t) (numberLength t))
  let after := (t.drop length).dropWhile isWordByte
  if after.length + length = t.length then (.number, t.take length, after)
  else (.illegal, [], after)

/-- The end of a parameter with a name, which may go on after two colons or with something in
brackets. It has a name at all if that is told. -/
def parameterEnd (isNamed : Bool) : Text → Bool × Text
  | [] => (isNamed, [])
  | 58 :: 58 :: rest => parameterEnd isNamed rest
  | 40 :: rest =>
      if isNamed then
        match rest.dropWhile (fun b => !isBlankByte b && b != 41) with
        | 41 :: after => (true, after)
        | after => (false, after)
      else (false, 40 :: rest)
  | b :: rest => if isWordByte b then parameterEnd true rest else (isNamed, b :: rest)

def afterBlank? : Text → Option Text
  | 45 :: 45 :: rest => some (rest.dropWhile (· != 10))
  | 47 :: 42 :: b :: rest => some (afterComment (b :: rest))
  | 239 :: 187 :: 191 :: rest => some rest
  | b :: rest => if isBlankByte b && b != 11 then some (rest.dropWhile isBlankByte) else none
  | [] => none

/-- The kind and the text of the token at the front, and what follows it. -/
def next : Text → Kind × Text × Text
  | [] => (.illegal, [], [])
  | 39 :: rest => untilQuote .literal 39 rest
  | 34 :: rest => untilQuote .quoted 34 rest
  | 96 :: rest => untilQuote .name 96 rest
  | 91 :: rest =>
      let inside := rest.takeWhile (· != 93)
      match rest.drop inside.length with
      | _ :: after => (.name, inside, after)
      | [] => (.illegal, [], [])
  | 63 :: rest => (.parameter, [], rest.dropWhile isDigitByte)
  | b :: rest =>
      let t := b :: rest
      if b = 35 ∧ rest.head?.any isDigitByte then
        (.mark, 35 :: rest.takeWhile isWordByte, rest.dropWhile isWordByte)
      else if [36, 64, 58, 35].contains b then
        let (isNamed, after) := parameterEnd false rest
        (if isNamed then .parameter else .illegal, [], after)
      else if lowerByte b = 120 ∧ rest.head? = some 39 then untilBytes rest.tail
      else if isDigitByte b ∨ (b = 46 ∧ rest.head?.any isDigitByte) then untilNumber t
      else if isWordByte b then (.word, t.takeWhile isWordByte, t.dropWhile isWordByte)
      else if t.take 3 = utf8 "->>" then (.mark, t.take 3, t.drop 3)
      else if pairs.contains (t.take 2) then (.mark, t.take 2, t.drop 2)
      else (if marks.contains b then .mark else .illegal, [b], rest)

/-- The tokens of a text. Every round takes a byte, so its length bounds them. -/
def readFrom : Nat → Text → List Token
  | 0, _ => []
  | fuel + 1, t =>
      if t.isEmpty then []
      else
        match afterBlank? t with
        | some rest => readFrom fuel rest
        | none =>
            let (kind, text, rest) := next t
            { kind, text, ahead := t, raw := t.take (t.length - rest.length) } :: readFrom fuel rest

def read (t : Text) : List Token := readFrom t.length t

def isWord (keyword : String) (token : Token) : Bool :=
  token.kind == .word && token.text.lower == utf8 keyword

def isOneOf (keywords : List String) (token : Token) : Bool :=
  keywords.any (fun keyword => token.isWord keyword)

def isMark (spelling : String) (token : Token) : Bool :=
  token.kind == .mark && token.text == utf8 spelling

/-- What stands for the end of what is written. -/
def stop : Token := { kind := .mark, text := utf8 ";" }

def stopped (tokens : List Token) : List Token :=
  if tokens.getLast?.any (Token.isMark ";") then tokens else tokens ++ [stop]

def name? (token : Token) : Option Text :=
  if [Kind.word, .name, .quoted, .literal].contains token.kind then some token.text else none

def startsWith (keyword : String) (tokens : List Token) : Bool :=
  tokens.head?.any (Token.isWord keyword)

/-- What follows some keywords at the front, if all of them are there. -/
def after? : List String → List Token → Option (List Token)
  | [], tokens => some tokens
  | keyword :: keywords, token :: rest => if token.isWord keyword then after? keywords rest
      else none
  | _ :: _, [] => none

def afterMark? (spelling : String) : List Token → Option (List Token)
  | token :: rest => if token.isMark spelling then some rest else none
  | [] => none

def skipWords (keywords : List String) (tokens : List Token) : List Token :=
  tokens.dropWhile (Token.isOneOf keywords)

/-- What is between an opening bracket, which has been read, and its closing one, cut at the commas
in between, and what follows from the closing one on. -/
def listFrom (depth : Nat) (item : List Token) :
    List Token → Option (List (List Token) × List Token)
  | [] => none
  | token :: rest =>
      if token.isMark "(" then listFrom (depth + 1) (item ++ [token]) rest
      else if token.isMark ")" then
        if depth = 0 then some ([item], token :: rest)
        else listFrom (depth - 1) (item ++ [token]) rest
      else if token.isMark "," && depth == 0 then
        (listFrom 0 [] rest).map (fun (items, rest) => (item :: items, rest))
      else listFrom depth (item ++ [token]) rest

/-- The items between brackets at the front, and what follows. -/
def bracketed? : List Token → Option (List (List Token) × List Token)
  | token :: rest =>
      if token.isMark "(" then (listFrom 0 [] rest).map (fun (items, rest) => (items, rest.drop 1))
      else none
  | [] => none

/-- What is between an opening bracket, which has been read, and its closing one, and what follows
that. -/
def enclosedFrom : Nat → List Token → Option (List Token × List Token)
  | _, [] => none
  | depth, token :: rest =>
      if token.isMark ")" && depth == 0 then some ([], rest)
      else
        let depth := if token.isMark "(" then depth + 1 else if token.isMark ")" then depth - 1
          else depth
        (enclosedFrom depth rest).map (fun (inside, rest) => (token :: inside, rest))

/-- What is between brackets at the front, and what follows. -/
def enclosed? : List Token → Option (List Token × List Token)
  | token :: rest => if token.isMark "(" then enclosedFrom 0 rest else none
  | [] => none

def written (tokens : List Token) : Text :=
  match tokens.head?, tokens.getLast? with
  | some first, some last => first.ahead.take
      (first.ahead.length - last.ahead.length + last.raw.length)
  | _, _ => []

/-- A text without the quotes that it starts with, and what follows the closing one. -/
def unquoted (t : Text) : Text :=
  match t with
  | 39 :: rest => ((quotedBy 39 rest).map Prod.fst).getD rest
  | 34 :: rest => ((quotedBy 34 rest).map Prod.fst).getD rest
  | 96 :: rest => ((quotedBy 96 rest).map Prod.fst).getD rest
  | 91 :: rest => rest.takeWhile (· != 93)
  | t => t

end Token
end CodeAudit
