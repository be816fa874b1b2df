import CodeAudit.Settings.Numeral
import Mathlib.Algebra.Group.Nat.Defs
import Mathlib.Data.List.TakeWhile

/-! Decimal digits and the numerals that whole numbers are written as: such a numeral has exactly
the value of the number, as long as that has no more than 53 bits. -/
namespace CodeAudit

section Bytes

variable {low high b : UInt8}

theorem between_iff :
    (decide (low ≤ b) && decide (b ≤ high)) = true ↔
      low.toNat ≤ b.toNat ∧ b.toNat ≤ high.toNat := by
  simp [UInt8.le_iff_toNat_le]

theorem isDigitByte_iff : isDigitByte b = true ↔ 48 ≤ b.toNat ∧ b.toNat ≤ 57 := between_iff

theorem isUpperByte_iff : isUpperByte b = true ↔ 65 ≤ b.toNat ∧ b.toNat ≤ 90 := between_iff

theorem isLowerByte_iff : isLowerByte b = true ↔ 97 ≤ b.toNat ∧ b.toNat ≤ 122 := between_iff

theorem Document.digitValue_lt_ten_iff : Document.digitValue b < 10 ↔ isDigitByte b = true := by
  unfold Document.digitValue
  split
  next digit =>
    have bounds := isDigitByte_iff.mp digit
    refine iff_of_true ?_ digit
    omega
  next other =>
    refine iff_of_false ?_ other
    split
    next letter =>
      have large : 97 ≤ (lowerByte b).toNat := (between_iff.mp letter).1
      omega
    · omega

end Bytes

namespace Text

/-- Digits that stand for a number, leading zeros allowed. -/
structure Decimal (digits : Text) (n : Nat) : Prop where
  digit : ∀ b ∈ digits, isDigitByte b = true
  value : digits.foldl (fun m b => m * 10 + Document.digitValue b) 0 = n

theorem isDigitByte_digit {d : Nat} (small : d < 10) : isDigitByte (48 + d).toUInt8 = true := by
  rw [isDigitByte_iff, Nat.toUInt8_eq, UInt8.toNat_ofNat']
  omega

theorem digitValue_digit {d : Nat} (small : d < 10) : Document.digitValue (48 + d).toUInt8 = d := by
  rw [Document.digitValue, if_pos (isDigitByte_digit small), Nat.toUInt8_eq, UInt8.toNat_ofNat']
  omega

namespace Decimal

variable {t u : Text} {n m d : Nat}

theorem nil : Decimal [] 0 := ⟨nofun, rfl⟩

theorem concat (decimal : Decimal t n) (small : d < 10) :
    Decimal (t ++ [(48 + d).toUInt8]) (n * 10 + d) := by
  constructor
  · intro b listed
    rcases List.mem_append.mp listed with before | last
    · exact decimal.digit b before
    · rw [List.mem_singleton.mp last]
      exact isDigitByte_digit small
  · rw [List.foldl_append, decimal.value, List.foldl_cons, List.foldl_nil, digitValue_digit small]

theorem zeros (decimal : Decimal t n) (count : Nat) : Decimal (List.replicate count 48 ++ t) n := by
  constructor
  · intro b listed
    rcases List.mem_append.mp listed with zero | after
    · rw [List.eq_of_mem_replicate zero]
      rfl
    · exact decimal.digit b after
  · have nothing : (List.replicate count (48 : UInt8)).foldl
        (fun m b => m * 10 + Document.digitValue b) 0 = 0 := by
      induction count with
      | zero => rfl
      | succ count ih => exact ih
    rw [List.foldl_append, nothing, decimal.value]

theorem ofDigits? (decimal : Decimal t n) (nonempty : t ≠ []) :
    Document.ofDigits? 10 t = some n := by
  have digits : t.any (fun b => 10 ≤ Document.digitValue b) = false := by
    simp only [List.any_eq_false, decide_eq_true_eq, Nat.not_le]
    exact fun b listed => Document.digitValue_lt_ten_iff.mpr (decimal.digit b listed)
  rw [Document.ofDigits?, digits, List.isEmpty_eq_false_iff.mpr nonempty]
  exact congrArg some decimal.value

end Decimal

theorem digitChar_byte {d : Nat} (small : d < 10) :
    (Nat.digitChar d).toNat.toUInt8 = (48 + d).toUInt8 := by
  revert d
  decide

/-- The last digit comes off the end. -/
theorem ofNat_eq (n : Nat) : ofNat n = (if n < 10 then [] else ofNat (n / 10)) ++
    [(48 + n % 10).toUInt8] := by
  unfold ofNat
  rw [Nat.toDigits_eq_if (by omega)]
  split
  next small => simp [digitChar_byte small, Nat.mod_eq_of_lt small]
  next => simp [digitChar_byte (Nat.mod_lt n (by omega : 10 > 0))]

theorem ofNat_ne_nil (n : Nat) : ofNat n ≠ [] := by
  rw [ofNat_eq]
  simp

theorem decimal_ofNat (n : Nat) : Decimal (ofNat n) n := by
  induction n using Nat.strongRecOn with
  | ind n ih =>
    have last : n % 10 < 10 := Nat.mod_lt n (by omega)
    rw [ofNat_eq]
    split
    next small => simpa [Nat.mod_eq_of_lt small] using Decimal.nil.concat last
    next => simpa [Nat.div_add_mod'] using (ih (n / 10) (by omega)).concat last

theorem ofNat_length_le {n k : Nat} (small : n < 10 ^ (k + 1)) : (ofNat n).length ≤ k + 1 := by
  induction k generalizing n with
  | zero =>
    rw [ofNat_eq, if_pos (by omega)]
    simp
  | succ k ih =>
    rw [ofNat_eq]
    split
    · simp
    · have shorter := ih (n := n / 10) (by rw [Nat.pow_succ] at small; omega)
      simp only [List.length_append, List.length_singleton]
      omega

def signed (negative : Bool) (t : Text) : Text := if negative then 45 :: t else t

theorem ofInt_eq (i : Int) : ofInt i = signed (decide (i < 0)) (ofNat i.natAbs) := by
  simp only [ofInt, signed, decide_eq_true_eq]

end Text

namespace Numeral

open Text

theorem isFinite_of_integer? {v : Numeral} {i : Int} (whole : v.integer? = some i) :
    v.isFinite = true := by
  rcases v with _ | _ | _
  · contradiction
  · contradiction
  · rfl

theorem integer?_finite_neg (negative : Bool) (n k : Nat) :
    (finite negative (n * Nat.pow 2 k) (-(k : Int))).integer? =
      some (if negative then -(n : Int) else n) := by
  rcases k with _ | k
  · simp [integer?]
  · have unit : 0 < Nat.pow 2 (k + 1) := Nat.pow_pos (by decide)
    rw [show -((k + 1 : Nat) : Int) = .negSucc k from rfl]
    simp only [integer?, Nat.mul_mod_left, if_true, Nat.mul_div_cancel n unit]

theorem roundQuotient_one (n : Nat) : roundQuotient n 1 = n := by
  simp [roundQuotient, Nat.mod_one]

theorem scaled_neg (num den k : Nat) : scaled num den (-(k : Int)) = (num * Nat.pow 2 k, den) := by
  rcases k with _ | k
  · simp [scaled]
  · rfl

/-- Rounding as it is done, but to significands below any bound. The bound itself is too large a
number for a proof that might count down from it. -/
def ofQuotientBelow (bound : Nat) (negative : Bool) (num den : Nat) : Numeral :=
  if num = 0 then finite negative 0 0
  else
    let guess : Int := (Nat.log2 num : Int) - (Nat.log2 den : Int) - 53
    let (n, d) := scaled num den guess
    let exponent := max (if n < d * bound then guess else guess + 1) (-1074)
    let (n, d) := scaled num den exponent
    let significand := roundQuotient n d
    if 1024 < exponent + 53 ∨ (exponent + 53 = 1024 ∧ significand = bound) then infinite negative
    else finite negative significand exponent

theorem ofQuotient_eq (negative : Bool) (num den : Nat) :
    ofQuotient negative num den = ofQuotientBelow (Nat.pow 2 53) negative num den := rfl

/-- A whole number that the guess is one too low for, and whose digits all fit, is not rounded. -/
theorem ofQuotientBelow_whole (negative : Bool) {n k bound : Nat} (positive : 0 < n)
    (spare : n.log2 + k = 52) (full : bound ≤ n * Nat.pow 2 (k + 1)) :
    ofQuotientBelow bound negative n 1 = finite negative (n * Nat.pow 2 k) (-(k : Int)) := by
  have guess : (n.log2 : Int) - (Nat.log2 1 : Int) - 53 = -((k + 1 : Nat) : Int) := by
    rw [show Nat.log2 1 = 0 from rfl]
    omega
  have filled : ¬n * Nat.pow 2 (k + 1) < 1 * bound := by omega
  have exponent : max (-((k + 1 : Nat) : Int) + 1) (-1074) = -(k : Int) := by omega
  simp only [ofQuotientBelow, if_neg (Nat.ne_of_gt positive), guess, scaled_neg,
    if_neg filled, exponent,
    roundQuotient_one]
  rw [if_neg (by omega)]

/-- A number of at most 53 bits is not rounded. -/
theorem integer?_ofQuotient (negative : Bool) {n : Nat} (small : n < 2 ^ 53) :
    (ofQuotient negative n 1).integer? = some (if negative then -(n : Int) else n) := by
  rcases Nat.eq_zero_or_pos n with rfl | positive
  · simp [ofQuotient, integer?]
  · have bits : n.log2 < 53 := (Nat.log2_lt (by omega)).mpr small
    obtain ⟨k, spare⟩ : ∃ k, n.log2 + k = 52 := ⟨52 - n.log2, by omega⟩
    have full : Nat.pow 2 53 ≤ n * Nat.pow 2 (k + 1) := calc
      Nat.pow 2 53 = Nat.pow 2 n.log2 * Nat.pow 2 (k + 1) := by
        rw [show 53 = n.log2 + (k + 1) by omega]
        exact Nat.pow_add 2 n.log2 (k + 1)
      _ ≤ n * Nat.pow 2 (k + 1) := Nat.mul_le_mul_right _ (Nat.log2_self_le (by omega))
    rw [ofQuotient_eq, ofQuotientBelow_whole negative positive spare full]
    exact integer?_finite_neg negative n k

theorem integer?_ofScientific (negative : Bool) {n : Nat} (small : n < 2 ^ 53) :
    (ofScientific negative n 10 0).integer? = some (if negative then -(n : Int) else n) := by
  rcases Nat.eq_zero_or_pos n with rfl | positive
  · simp [ofScientific, integer?]
  · have bits : n.log2 < 53 := (Nat.log2_lt (by omega)).mpr small
    have moderate : ¬1100 < (n.log2 : Int) := by omega
    have unscaled : ofScientific negative n 10 0 = ofQuotient negative n 1 := by
      simp [ofScientific, Nat.ne_of_gt positive, moderate]
    rw [unscaled]
    exact integer?_ofQuotient negative small

/-- What whole numbers and lengths of time are made of but for their minus sign. -/
def IsFigure (b : UInt8) : Prop := isDigitByte b = true ∨ b = 46 ∨ b = 115

theorem lowerByte_figure {b : UInt8} (figure : IsFigure b) : lowerByte b = b := by
  rcases figure with digit | rfl | rfl
  · have small := (isDigitByte_iff.mp digit).2
    refine if_neg fun upper => ?_
    have large := (isUpperByte_iff.mp upper).1
    omega
  · rfl
  · rfl

structure Figures (t : Text) : Prop where
  starts : ∃ b rest, t = b :: rest ∧ isDigitByte b = true
  figure : ∀ b ∈ t, IsFigure b

section Figures

variable {t : Text} {n : Nat} {b : UInt8}

theorem Figures.lower (figures : Figures t) : t.lower = t :=
  (List.map_congr_left fun b listed => lowerByte_figure (figures.figure b listed)).trans
    (List.map_id t)

theorem Figures.beforeNul (figures : Figures t) : t.beforeNul = t := by
  refine List.takeWhile_eq_self_iff.mpr fun b listed => ?_
  rcases figures.figure b listed with digit | rfl | rfl
  · have large := (isDigitByte_iff.mp digit).1
    rw [bne_iff_ne]
    rintro rfl
    contradiction
  · rfl
  · rfl

theorem digit_ne {b c : UInt8} (digit : isDigitByte b = true) (other : isDigitByte c = false) :
    b ≠ c := by
  rintro rfl
  simp [digit] at other

theorem isBlankByte_digit {b : UInt8} (digit : isDigitByte b = true) : isBlankByte b = false := by
  have large := (isDigitByte_iff.mp digit).1
  refine Bool.eq_false_iff.mpr fun blank => ?_
  rw [isBlankByte, Bool.or_eq_true, beq_iff_eq] at blank
  rcases blank with rfl | control
  · contradiction
  · have small : b.toNat ≤ 13 := (between_iff.mp control).2
    omega

/-- A text is a decimal numeral unless its letters make it another one. -/
theorem unsigned?_decimal (negative : Bool) {rest : Text} (i : lowerByte b ≠ 105)
    (n : lowerByte b ≠ 110) (hexadecimal : (utf8 "0x").isPrefixOf (lower (b :: rest)) = false) :
    unsigned? negative (b :: rest) = positional? negative 10 1 10 101 (lower (b :: rest)) := by
  have finite : ¬(lower (b :: rest) = utf8 "inf" ∨ lower (b :: rest) = utf8 "infinity") := by
    rintro (same | same)
    all_goals exact i (List.cons.inj same).1
  have nan : (utf8 "nan").isPrefixOf (lower (b :: rest)) = false := by
    rw [show utf8 "nan" = [110, 97, 110] from rfl, lower, List.map_cons, List.isPrefixOf,
      beq_false_of_ne n.symm]
    rfl
  simp only [unsigned?, nan, hexadecimal, if_neg finite, Bool.false_eq_true, false_and, if_false]

theorem unsigned?_figures (negative : Bool) (figures : Figures t) :
    unsigned? negative t = positional? negative 10 1 10 101 t := by
  obtain ⟨b, rest, rfl, digit⟩ := figures.starts
  have same : lowerByte b = b := lowerByte_figure (.inl digit)
  have hexadecimal : (utf8 "0x").isPrefixOf (b :: rest) = false := by
    rw [show utf8 "0x" = [48, 120] from rfl, List.isPrefixOf]
    rcases rest with _ | ⟨c, rest⟩
    · simp [List.isPrefixOf]
    · have plain : c ≠ 120 := by
        rintro rfl
        rcases figures.figure 120 (by simp) with digit | point | second
        all_goals contradiction
      simp [List.isPrefixOf, plain.symm]
  rw [unsigned?_decimal negative (same.symm ▸ digit_ne digit rfl) (same.symm ▸ digit_ne digit rfl)
    (figures.lower.symm ▸ hexadecimal), figures.lower]

/-- Figures are a numeral exactly as decimal digits are, whatever the sign before them. -/
theorem ofText?_figures (negative : Bool) (figures : Figures t) :
    ofText? (signed negative t) = positional? negative 10 1 10 101 t := by
  rw [← unsigned?_figures negative figures]
  rcases negative with _ | _
  · obtain ⟨b, rest, rfl, digit⟩ := figures.starts
    simp only [signed, Bool.false_eq_true, if_false, ofText?, List.isEmpty_cons, figures.beforeNul,
      List.dropWhile_cons, isBlankByte_digit digit]
    split
    next minus => exact absurd (List.cons.inj minus).1 (digit_ne digit rfl)
    next plus => exact absurd (List.cons.inj plus).1 (digit_ne digit rfl)
    next => rfl
  · have read : beforeNul (45 :: t) = 45 :: t := by
      rw [beforeNul, List.takeWhile_cons_of_pos rfl]
      exact congrArg _ figures.beforeNul
    simp only [signed, if_true, ofText?, List.isEmpty_cons, Bool.false_eq_true, if_false, read]
    rfl

/-- The bytes that a numeral may begin with, NUL among them since a text that begins with it counts
as empty. -/
def begins (b : UInt8) : Bool :=
  b == 0 || isBlankByte b || b == 43 || b == 45 || b == 46 || isDigitByte b || lowerByte b == 105 ||
    lowerByte b == 110

theorem lowerByte_eq {c : UInt8} (plain : isLowerByte c = false) (lower : lowerByte b = c) :
    b = c := by
  unfold lowerByte at lower
  split at lower
  next upper =>
    have bounds := isUpperByte_iff.mp upper
    have value : c.toNat = b.toNat + 32 := by
      rw [← lower, UInt8.toNat_add, show (32 : UInt8).toNat = 32 from rfl]
      omega
    have letter : isLowerByte c = true := isLowerByte_iff.mpr (by omega)
    simp [letter] at plain
  next => exact lower

theorem isLowerByte_digit (digit : isDigitByte b = true) : isLowerByte b = false := by
  have small := (isDigitByte_iff.mp digit).2
  refine Bool.eq_false_iff.mpr fun letter => ?_
  have large := (isLowerByte_iff.mp letter).1
  omega

theorem unsigned?_other (negative : Bool) {rest : Text} (other : begins b = false) :
    unsigned? negative (b :: rest) = none := by
  simp only [begins, Bool.or_eq_false_iff, beq_eq_false_iff_ne] at other
  obtain ⟨⟨⟨⟨_, point⟩, digit⟩, i⟩, n⟩ := other
  have large : ¬Document.digitValue (lowerByte b) < 10 := fun small => by
    have lowered := Document.digitValue_lt_ten_iff.mp small
    rw [← lowerByte_eq (isLowerByte_digit lowered) rfl, digit] at lowered
    contradiction
  have hexadecimal : (utf8 "0x").isPrefixOf (lower (b :: rest)) = false := by
    have zero : (48 : UInt8) ≠ lowerByte b := by
      intro same
      rw [← same] at large
      exact large (by decide)
    rw [show utf8 "0x" = [48, 120] from rfl, lower, List.map_cons, List.isPrefixOf,
      beq_false_of_ne zero]
    rfl
  have fraction : lowerByte b ≠ 46 := fun same => point (lowerByte_eq rfl same)
  rw [unsigned?_decimal negative i n hexadecimal]
  simp [positional?, lower, large, fraction, Document.ofDigits?]

theorem ofText?_other {rest : Text} (other : begins b = false) : ofText? (b :: rest) = none := by
  have unread (rest : Text) : unsigned? false (b :: rest) = none := unsigned?_other false other
  simp only [begins, Bool.or_eq_false_iff, beq_eq_false_iff_ne] at other
  obtain ⟨⟨⟨⟨⟨⟨⟨nul, visible⟩, plus⟩, minus⟩, _⟩, _⟩, _⟩, _⟩ := other
  have read : beforeNul (b :: rest) = b :: beforeNul rest :=
    List.takeWhile_cons_of_pos (by simpa using nul)
  simp only [ofText?, List.isEmpty_cons, Bool.false_eq_true, if_false, read,
    List.dropWhile_cons, visible]
  split
  next sign => exact absurd (List.cons.inj sign).1 minus
  next sign => exact absurd (List.cons.inj sign).1 plus
  next => exact unread _

theorem digitTest : (fun b => decide (Document.digitValue b < 10)) = isDigitByte :=
  funext fun b => by simp only [Document.digitValue_lt_ten_iff, Bool.decide_eq_true]

/-- Digits end where another byte follows. -/
theorem takeWhile_digits {u : Text} (digits : ∀ b ∈ t, isDigitByte b = true)
    (stop : ∀ b ∈ u.head?, isDigitByte b = false) :
    (t ++ u).takeWhile isDigitByte = t ∧ (t ++ u).dropWhile isDigitByte = u := by
  rw [List.takeWhile_append_of_pos digits, List.dropWhile_append_of_pos digits]
  rcases u with _ | ⟨b, rest⟩
  · simp
  · have last : isDigitByte b = false := stop b rfl
    simp [last]

theorem positional?_digits (negative : Bool) (decimal : Decimal t n) (nonempty : t ≠ []) :
    positional? negative 10 1 10 101 t = some (ofScientific negative n 10 0) := by
  have ⟨digits, rest⟩ := takeWhile_digits (u := []) decimal.digit nofun
  rw [List.append_nil] at digits rest
  simp [positional?, digitTest, digits, rest, decimal.ofDigits? nonempty]

theorem figures_append {u : Text} (decimal : Decimal t n) (nonempty : t ≠ [])
    (rest : ∀ b ∈ u, IsFigure b) :
    Figures (t ++ u) := by
  obtain ⟨b, digits, rfl⟩ := List.exists_cons_of_ne_nil nonempty
  refine ⟨⟨b, digits ++ u, rfl, decimal.digit b List.mem_cons_self⟩, fun b listed => ?_⟩
  rcases List.mem_append.mp listed with digit | after
  · exact .inl (decimal.digit b digit)
  · exact rest b after

/-- The decimal text of a number of at most 53 bits is a numeral of exactly that value. -/
theorem ofText?_ofNat (negative : Bool) (small : n < 2 ^ 53) :
    ∃ v, ofText? (signed negative (ofNat n)) = some v ∧
    v.integer? = some (if negative then -(n : Int) else n) := by
  have decimal := decimal_ofNat n
  have figures : Figures (ofNat n) := by
    simpa using figures_append decimal (ofNat_ne_nil n) (u := []) nofun
  refine ⟨_, ?_, integer?_ofScientific negative small⟩
  rw [ofText?_figures negative figures, positional?_digits negative decimal (ofNat_ne_nil n)]

theorem ofText?_ofInt {i : Int} (small : i.natAbs < 2 ^ 53) :
    ∃ v, ofText? (ofInt i) = some v ∧ v.integer? = some i := by
  obtain ⟨v, read, value⟩ := ofText?_ofNat (decide (i < 0)) small
  refine ⟨v, by rw [ofInt_eq, read], value.trans (congrArg some ?_)⟩
  simp only [decide_eq_true_eq]
  omega

end Figures

end Numeral
end CodeAudit
