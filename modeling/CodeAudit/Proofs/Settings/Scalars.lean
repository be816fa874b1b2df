import CodeAudit.Proofs.Settings.Numerals
import CodeAudit.Settings.Reader

/-! Values written as scalars and read back: texts, truth values, whole numbers, modes and lengths
of time. All but texts always come back. -/
namespace CodeAudit
namespace Settings

open Text

/-- A text that is not taken for a truth value or a number. -/
structure Word (t : Text) : Prop where
  not_true : t ≠ utf8 "true"
  not_false : t ≠ utf8 "false"
  not_numeral : Numeral.ofText? t = none

section Words

variable {t : Text} {v : Numeral} {i : Int}

theorem word_nil : Word [] := ⟨nofun, nofun, rfl⟩

theorem Scalar.ofText_word (word : Word t) : Scalar.ofText t = .text t := by
  rw [Scalar.ofText, if_neg word.not_true, if_neg word.not_false, word.not_numeral]

theorem Scalar.word_of_ofText {u : Text} (kept : Scalar.ofText t = .text u) : Word t := by
  unfold Scalar.ofText at kept
  split at kept
  · contradiction
  next not_true =>
    split at kept
    · contradiction
    next not_false =>
      split at kept
      · contradiction
      next not_numeral => exact ⟨not_true, not_false, not_numeral⟩

theorem Scalar.ofText_numeral (numeral : Numeral.ofText? t = some v) :
    Scalar.ofText t = .number v := by
  have not_true : t ≠ utf8 "true" := by
    rintro rfl
    contradiction
  have not_false : t ≠ utf8 "false" := by
    rintro rfl
    contradiction
  rw [Scalar.ofText, if_neg not_true, if_neg not_false, numeral]

/-- The text begins with a byte that no truth value and no number begins with. -/
def startsWord (t : Text) : Bool := t.head?.any (fun b => !Numeral.begins b && b != 116 && b != 102)

theorem word_of_startsWord (starts : startsWord t = true) : Word t := by
  rcases t with _ | ⟨b, rest⟩
  · contradiction
  · simp only [startsWord, List.head?_cons, Option.any_some, Bool.and_eq_true, Bool.not_eq_true',
      bne_iff_ne] at starts
    obtain ⟨⟨other, t⟩, f⟩ := starts
    exact ⟨fun same => t (List.cons.inj same).1, fun same => f (List.cons.inj same).1,
      Numeral.ofText?_other other⟩

theorem text?_word (word : Word t) : text? (.scalar t) = some t := by
  simp [text?, Document.scalar?, Scalar.ofText_word word]

theorem text?_other (other : ¬Word t) : text? (.scalar t) = none := by
  rcases kind : Scalar.ofText t with value | value | value
  · simp [text?, Document.scalar?, kind]
  · simp [text?, Document.scalar?, kind]
  · exact absurd (Scalar.word_of_ofText kind) other

theorem isEncodable_word (word : Word t) : isEncodable (.scalar t) = true := by
  simp [isEncodable, Scalar.ofText_word word]

end Words

def truthText (value : Bool) : Text := if value then utf8 "true" else utf8 "false"

theorem truth?_truthText (value : Bool) : truth? (.scalar (truthText value)) = some value := by
  rcases value with _ | _
  · rfl
  · rfl

theorem isEncodable_truthText (value : Bool) : isEncodable (.scalar (truthText value)) = true := by
  rcases value with _ | _
  · rfl
  · rfl

section Numbers

variable {i low high : Int}

theorem integer?_ofInt (small : i.natAbs < 2 ^ 53) (least : low ≤ i) (most : i ≤ high) :
    integer? low high (.scalar (ofInt i)) = some i := by
  obtain ⟨v, read, value⟩ := Numeral.ofText?_ofInt small
  simp [integer?, Document.scalar?, Scalar.ofText_numeral read, value, least, most]

theorem isEncodable_ofInt (small : i.natAbs < 2 ^ 53) : isEncodable (.scalar (ofInt i)) = true := by
  obtain ⟨v, read, value⟩ := Numeral.ofText?_ofInt small
  simp [isEncodable, Scalar.ofText_numeral read, Numeral.isFinite_of_integer? value]

theorem natAbs_count (n : UInt32) : (n.toNat : Int).natAbs < 2 ^ 53 := by
  have bound : n.toNat < 2 ^ 32 := n.toNat_lt
  omega

theorem natAbs_mode (mode : Int32) : mode.toInt.natAbs < 2 ^ 53 := by
  have least : -2 ^ 31 ≤ mode.toInt := mode.le_toInt
  have most : mode.toInt < 2 ^ 31 := mode.toInt_lt
  omega

theorem count?_ofInt (n : UInt32) : count? (.scalar (ofInt n.toNat)) = some n := by
  have most : (n.toNat : Int) ≤ (UInt32.size - 1 : Nat) := by
    have bound : n.toNat < UInt32.size := n.toNat_lt_size
    omega
  rw [count?, integer?_ofInt (natAbs_count n) (Int.natCast_nonneg _) most]
  simp

theorem mode?_ofInt (names : List String) (mode : Int32) :
    mode? names (.scalar (ofInt mode.toInt)) = some mode := by
  obtain ⟨v, read, value⟩ := Numeral.ofText?_ofInt (natAbs_mode mode)
  have number : text? (.scalar (ofInt mode.toInt)) = none :=
    text?_other fun word => by simp [word.not_numeral] at read
  have least : Int32.minValue.toInt ≤ mode.toInt := mode.minValue_le_toInt
  rw [mode?, number]
  dsimp only
  rw [integer?_ofInt (natAbs_mode mode) least mode.toInt_le]
  simp

/-- A mode has its place in the list of names for its number. -/
theorem mode?_name {names : List String} {name : String} {i : Nat}
    (words : ∀ n ∈ names, Word (utf8 n)) (distinct : names.Pairwise (fun m n => utf8 m ≠ utf8 n))
    (named : names[i]? = some name) :
    mode? names (.scalar (utf8 name)) = some (Int32.ofNat i) := by
  have place : names.findIdx? (fun n => utf8 n = utf8 name) = some i := by
    obtain ⟨inside, rfl⟩ := List.getElem?_eq_some_iff.mp named
    refine List.findIdx?_eq_some_iff_getElem.mpr ⟨inside, by simp, fun j before => ?_⟩
    simpa using List.pairwise_iff_getElem.mp distinct j i (by omega) inside before
  simp [mode?, text?_word (words name (List.mem_of_getElem? named)), place]

theorem graphModeNames_word : ∀ n ∈ graphModeNames, Word (utf8 n) := by
  have starts : ∀ n ∈ graphModeNames, startsWord (utf8 n) = true := by decide
  exact fun n listed => word_of_startsWord (starts n listed)

theorem graphModeNames_distinct : graphModeNames.Pairwise (fun m n => utf8 m ≠ utf8 n) := by decide

theorem transportNames_word : ∀ n ∈ transportNames, Word (utf8 n) := by
  have starts : ∀ n ∈ transportNames, startsWord (utf8 n) = true := by decide
  exact fun n listed => word_of_startsWord (starts n listed)

theorem transportNames_distinct : transportNames.Pairwise (fun m n => utf8 m ≠ utf8 n) := by decide

end Numbers

/-! Lengths of time -/

/-- What a text of seconds can say: no more than the longest time, and no opposite signs. -/
structure InRange (d : Duration) : Prop where
  seconds : d.seconds.toInt.natAbs ≤ maxDurationSeconds
  nanos : d.nanos.toInt.natAbs < 10 ^ 9
  sign : 0 ≤ d.seconds.toInt ∧ 0 ≤ d.nanos.toInt ∨ d.seconds.toInt ≤ 0 ∧ d.nanos.toInt ≤ 0

/-- Decimal digits filled up with leading zeros. -/
def padded (width n : Nat) : Text := List.replicate (width - (ofNat n).length) 48 ++ ofNat n

/-- The fraction of a second after its point, in as few groups of three digits as it takes. -/
def fractionText (nanos : Nat) : Text :=
  if nanos = 0 then []
  else if nanos % 10 ^ 6 = 0 then 46 :: padded 3 (nanos / 10 ^ 6)
  else if nanos % 10 ^ 3 = 0 then 46 :: padded 6 (nanos / 10 ^ 3)
  else 46 :: padded 9 nanos

def isNegative (d : Duration) : Bool := d.seconds.toInt < 0 || d.nanos.toInt < 0

/-- A number of seconds such as `1.500s`. -/
def durationText (d : Duration) : Text :=
  signed (isNegative d) (ofNat d.seconds.toInt.natAbs ++ fractionText d.nanos.toInt.natAbs ++ [115])

/-- Digits after a point, nine at most, and the nanoseconds they stand for; nothing for none. -/
def Fraction (t : Text) (nanos : Nat) : Prop :=
  (t = [] ∧ nanos = 0) ∨ ∃ digits n, t = 46 :: digits ∧ Decimal digits n ∧ digits ≠ [] ∧
    digits.length ≤ 9 ∧
    n * 10 ^ (9 - digits.length) = nanos

section Durations

variable {t u : Text} {n nanos : Nat} {d : Duration}

theorem padded_length {width : Nat} (small : n < 10 ^ (width + 1)) :
    (padded (width + 1) n).length = width + 1 := by
  have fits := ofNat_length_le small
  simp only [padded, List.length_append, List.length_replicate]
  omega

theorem fraction_padded (width : Nat) (small : n < 10 ^ (width + 1)) (short : width < 9) :
    Fraction (46 :: padded (width + 1) n) (n * 10 ^ (8 - width)) := by
  refine .inr ⟨_, n, rfl, (decimal_ofNat n).zeros _, by simp [padded, ofNat_ne_nil], ?_, ?_⟩
  · rw [padded_length small]
    omega
  · rw [padded_length small]
    congr 2
    omega

theorem fraction_fractionText (small : nanos < 10 ^ 9) : Fraction (fractionText nanos) nanos := by
  unfold fractionText
  split
  next none => exact .inl ⟨rfl, none⟩
  next =>
    split
    next millis =>
      have fraction := fraction_padded (n := nanos / 10 ^ 6) 2 (by omega) (by omega)
      rwa [show nanos / 10 ^ 6 * 10 ^ (8 - 2) = nanos by omega] at fraction
    next =>
      split
      next micros =>
        have fraction := fraction_padded (n := nanos / 10 ^ 3) 5 (by omega) (by omega)
        rwa [show nanos / 10 ^ 3 * 10 ^ (8 - 5) = nanos by omega] at fraction
      next =>
        have fraction := fraction_padded (n := nanos) 8 (by omega) (by omega)
        rwa [show nanos * 10 ^ (8 - 8) = nanos by omega] at fraction

/-- A number of seconds is no numeral, since a letter follows. -/
theorem positional?_seconds (negative : Bool) (whole : Decimal t n) (fraction : Fraction u nanos) :
    Numeral.positional? negative 10 1 10 101 (t ++ (u ++ [115])) = none := by
  have letter : isDigitByte 115 = false := rfl
  have mark : lowerByte 115 ≠ 101 := by decide
  rcases fraction with ⟨rfl, -⟩ | ⟨digits, m, rfl, decimal, -, -, -⟩
  · obtain ⟨taken, rest⟩ := Numeral.takeWhile_digits (u := [115]) whole.digit (by simp [letter])
    have point : [(115 : UInt8)].head? ≠ some 46 := by decide
    simp only [Numeral.positional?, Numeral.digitTest, List.nil_append, taken, rest, if_neg point,
      if_neg mark]
    simp
  · obtain ⟨taken, rest⟩ :=
      Numeral.takeWhile_digits (u := 46 :: (digits ++ [115])) whole.digit (by simp [isDigitByte])
    obtain ⟨more, last⟩ := Numeral.takeWhile_digits (u := [115]) decimal.digit (by simp [letter])
    simp only [Numeral.positional?, Numeral.digitTest, List.cons_append, taken, rest,
      List.head?_cons, List.tail_cons,
      if_true, more, last, if_neg mark]
    simp

theorem isFigure_fraction (fraction : Fraction u nanos) : ∀ b ∈ u ++ [115], Numeral.IsFigure b := by
  intro b listed
  rcases List.mem_append.mp listed with before | last
  · rcases fraction with ⟨rfl, -⟩ | ⟨digits, m, rfl, decimal, -, -, -⟩
    · contradiction
    · rcases List.mem_cons.mp before with point | digit
      · exact .inr (.inl point)
      · exact .inl (decimal.digit b digit)
  · exact .inr (.inr (List.mem_singleton.mp last))

theorem word_seconds (negative : Bool) (whole : Decimal t n) (nonempty : t ≠ [])
    (fraction : Fraction u nanos) :
    Word (signed negative (t ++ (u ++ [115]))) := by
  have figures := Numeral.figures_append whole nonempty (isFigure_fraction fraction)
  have letter {c : UInt8} {letters : Text} (minus : c ≠ 45) (other : isDigitByte c = false) :
      signed negative (t ++ (u ++ [115])) ≠ c :: letters := by
    obtain ⟨b, rest, shape, digit⟩ := figures.starts
    rw [shape]
    rcases negative with _ | _
    · exact fun same => Numeral.digit_ne digit other (List.cons.inj same).1
    · exact fun same => minus (List.cons.inj same).1.symm
  refine ⟨letter (by decide) rfl, letter (by decide) rfl, ?_⟩
  rw [Numeral.ofText?_figures negative figures]
  exact positional?_seconds negative whole fraction

theorem fractionNanos?_of {digits : Text} (decimal : Decimal digits n) (nonempty : digits ≠ [])
    (short : digits.length ≤ 9) : fractionNanos? digits = some (n * 10 ^ (9 - digits.length)) := by
  simp [fractionNanos?, decimal.ofDigits? nonempty, short]

theorem duration?_seconds (negative : Bool) (whole : Decimal t n) (nonempty : t ≠ [])
    (fraction : Fraction u nanos) (fits : n ≤ maxDurationSeconds) :
    duration? (.scalar (signed negative (t ++ (u ++ [115])))) = some
      { seconds := Int64.ofInt (if negative then -(n : Int) else n)
        nanos := Int32.ofInt (if negative then -(nanos : Int) else nanos) } := by
  have word := word_seconds negative whole nonempty fraction
  have sign : (signed negative (t ++ (u ++ [115]))).head? = some 45 ↔ negative = true := by
    obtain ⟨b, rest, rfl⟩ := List.exists_cons_of_ne_nil nonempty
    have digit : b ≠ 45 := Numeral.digit_ne (whole.digit b List.mem_cons_self) rfl
    rcases negative with _ | _
    · simp [signed, digit]
    · simp [signed]
  have body : (if negative then (signed negative (t ++ (u ++ [115]))).tail
    else signed negative (t ++ (u ++ [115]))) =
      t ++ u ++ [115] := by
    rcases negative with _ | _
    · simp [signed]
    · simp [signed]
  have stop : ∀ b ∈ u.head?, isDigitByte b = false := by
    rcases fraction with ⟨rfl, -⟩ | ⟨digits, m, rfl, -⟩
    · exact fun _ none => by simp at none
    · simp [isDigitByte]
  obtain ⟨taken, rest⟩ := Numeral.takeWhile_digits whole.digit stop
  have last : ¬(t ++ u ++ [(115 : UInt8)]).getLast? ≠ some 115 := by simp
  simp only [duration?, text?_word word, Option.bind_eq_bind, Option.bind_some, sign, body,
    if_neg last,
    List.dropLast_concat, taken, rest, whole.ofDigits? nonempty]
  rcases fraction with ⟨rfl, rfl⟩ | ⟨digits, m, rfl, decimal, figures, short, rfl⟩
  · simp only [if_neg (Nat.not_lt.mpr fits)]
  · simp only [fractionNanos?_of decimal figures short, Option.bind_some,
      if_neg (Nat.not_lt.mpr fits)]

theorem durationText_word (range : InRange d) : Word (durationText d) := by
  rw [durationText, List.append_assoc]
  exact word_seconds _ (decimal_ofNat _) (ofNat_ne_nil _) (fraction_fractionText range.nanos)

/-- A length of time comes back from its text. -/
theorem duration?_durationText (range : InRange d) :
    duration? (.scalar (durationText d)) = some d := by
  have seconds :
      (if isNegative d then -(d.seconds.toInt.natAbs : Int) else d.seconds.toInt.natAbs) =
        d.seconds.toInt := by
    have := range.sign
    simp only [isNegative, Bool.or_eq_true, decide_eq_true_eq]
    omega
  have nanos : (if isNegative d then -(d.nanos.toInt.natAbs : Int) else d.nanos.toInt.natAbs) =
      d.nanos.toInt := by
    have := range.sign
    simp only [isNegative, Bool.or_eq_true, decide_eq_true_eq]
    omega
  rw [durationText, List.append_assoc, duration?_seconds _ (decimal_ofNat _) (ofNat_ne_nil _)
    (fraction_fractionText range.nanos) range.seconds, seconds, nanos, Int64.ofInt_toInt,
      Int32.ofInt_toInt]

end Durations
end Settings
end CodeAudit
