import CodeAudit.Store.Relation.Json

/-!
Reading JSON. Nothing but blanks may stand around a value, and lists and maps stand in each other up
to a depth.
-/
namespace CodeAudit
namespace Json

def isBlank (b : UInt8) : Bool := b == 32 || b == 9 || b == 10 || b == 13

def skipBlanks (t : Text) : Text := t.dropWhile isBlank

/-- The inside of a text after its opening quote, and what follows the closing one. -/
def insideAt? : Text → Option (Text × Text)
  | [] => none
  | 34 :: rest => some ([], rest)
  | 92 :: letter :: rest =>
      let isUnit := letter == 117 && 4 ≤ rest.length &&
        (rest.take 4).all (fun b => Document.digitValue b < 16)
      if isUnit || (utf8 "\"\\/bfnrt").contains letter then
        (insideAt? rest).map (fun (inside, rest) => (92 :: letter :: inside, rest))
      else none
  | b :: rest => if b < 32 then none
      else (insideAt? rest).map (fun (inside, rest) => (b :: inside, rest))

/-- A number: digits without a zero in front, and perhaps a fraction and an exponent. -/
def numberAt? (t : Text) : Option (Json × Text) :=
  let sign := Numeral.signLength t
  let whole := (t.drop sign).takeWhile isDigitByte
  let rest := t.drop (sign + whole.length)
  let fraction : Text := if rest.head? = some 46 then 46 :: rest.tail.takeWhile isDigitByte else []
  let rest := rest.drop fraction.length
  let hasMark := rest.head?.any (fun b => lowerByte b == 101)
  let mark := if hasMark then 1 + Numeral.signLength rest.tail else 0
  let exponent := rest.take (mark + ((rest.drop mark).takeWhile isDigitByte).length)
  let isWrong := whole.isEmpty || (whole.head? = some 48 && 1 < whole.length) ||
    fraction.length == 1 ||
    (hasMark && exponent.length == mark)
  if isWrong then none
  else
    let exponent := if hasMark then exponent else []
    some (.number (!fraction.isEmpty || hasMark) (t.take sign ++ whole ++ fraction ++ exponent),
      rest.drop exponent.length)

def wordAt? (t : Text) : Option (Json × Text) :=
  ([("null", Json.null), ("true", .truth true), ("false", .truth false)].find?
    (fun ((word : String), _) =>
    (utf8 word).isPrefixOf t &&
      !(t.drop word.length).head?.any (fun b => isLetterByte b || isDigitByte b))).map
    (fun (word, value) => (value, t.drop word.length))

/-- How deep lists and maps may stand in each other. -/
def maxDepth : Nat := 2000

mutual

def valueAt? : Nat → Nat → Text → Option (Json × Text)
  | 0, _, _ => none
  | fuel + 1, depth, t =>
      match skipBlanks t with
      | [] => none
      | 123 :: rest =>
          match skipBlanks rest with
          | 125 :: after => if depth < maxDepth then some (.object [], after) else none
          | rest => (membersAt? fuel (depth + 1) rest).map
              (fun (members, rest) => (.object members, rest))
      | 91 :: rest =>
          match skipBlanks rest with
          | 93 :: after => if depth < maxDepth then some (.array [], after) else none
          | rest => (itemsAt? fuel (depth + 1) rest).map (fun (items, rest) => (.array items, rest))
      | 34 :: rest => (insideAt? rest).map (fun (inside, rest) => (.text inside, rest))
      | b :: rest => if b = 45 ∨ isDigitByte b then numberAt? (b :: rest) else wordAt? (b :: rest)

def itemsAt? : Nat → Nat → Text → Option (List Json × Text)
  | 0, _, _ => none
  | fuel + 1, depth, t =>
      if maxDepth < depth then none
      else
        match valueAt? fuel depth t with
        | none => none
        | some (item, rest) =>
            match skipBlanks rest with
            | 44 :: rest => (itemsAt? fuel depth rest).map
                (fun (items, rest) => (item :: items, rest))
            | 93 :: rest => some ([item], rest)
            | _ => none

def membersAt? : Nat → Nat → Text → Option (List (JsonLabel × Json) × Text)
  | 0, _, _ => none
  | fuel + 1, depth, t =>
      if maxDepth < depth then none
      else
        match skipBlanks t with
        | 34 :: rest =>
            match insideAt? rest with
            | none => none
            | some (inside, rest) =>
                match skipBlanks rest with
                | 58 :: rest =>
                    match valueAt? fuel depth rest with
                    | none => none
                    | some (value, rest) =>
                        let label : JsonLabel :=
                          { key := inside, written := [34] ++ inside ++ [34] }
                        match skipBlanks rest with
                        | 44 :: rest =>
                            (membersAt? fuel depth rest).map
                              (fun (members, rest) => ((label, value) :: members, rest))
                        | 125 :: rest => some ([(label, value)], rest)
                        | _ => none
                | _ => none
        | _ => none

end

/-- The value that a text writes. Every round takes a byte, so the length of the text bounds
them. -/
def ofText? (t : Text) : Option Json :=
  match valueAt? (2 * t.length + 2) 0 t with
  | some (value, rest) => if (skipBlanks rest).isEmpty then some value else none
  | none => none

end Json
end CodeAudit
