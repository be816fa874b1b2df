import CodeAudit.CallGraph.Mention
import CodeAudit.Proofs.Settings.Numerals
import Mathlib.Data.List.Basic

/-! Whole words in a text. A search finds a word exactly where it stands between two boundaries,
wherever it occurs and however often it overlaps itself; for a word of word bytes that is to be one
of the words that the text falls into. -/
namespace CodeAudit

namespace Text

def EndsInWord (t : Text) : Prop := ∃ b ∈ t.getLast?, isWordByte b = true

def StartsInWord (t : Text) : Prop := ∃ b ∈ t.head?, isWordByte b = true

/-- A text is cut at a boundary: the byte on exactly one side belongs to a word. At the ends of a
text there is no byte on the outer side. -/
def Boundary (before after : Text) : Prop := Xor before.EndsInWord after.StartsInWord

/-- The word occurs in the text between two boundaries. -/
def StandsIn (word text : Text) : Prop :=
  ∃ before after, text = before ++ word ++ after ∧ Boundary before (word ++ after) ∧
    Boundary (before ++ word) after

/-- A run of word bytes that cannot be made longer at either end. -/
def IsRun (run text : Text) : Prop :=
  run ≠ [] ∧ (∀ b ∈ run, isWordByte b = true) ∧
    ∃ before after, text = before ++ run ++ after ∧ ¬before.EndsInWord ∧ ¬after.StartsInWord

/-- The parts of a text between the bytes that belong to no word. -/
def words (t : Text) : List Text :=
  (t.splitOnP (fun b => !isWordByte b)).filter (fun part => !part.isEmpty)

variable {t text word run before after : Text} {b : UInt8}

theorem isBoundary_iff : isBoundary before.getLast? after.head? = true ↔ Boundary before after := by
  have ends : before.getLast?.any isWordByte = true ↔ before.EndsInWord := Option.any_eq_true _ _
  have starts : after.head?.any isWordByte = true ↔ after.StartsInWord := Option.any_eq_true _ _
  rw [isBoundary, Boundary, ← ends, ← starts, bne_iff_ne, ne_eq, Bool.eq_iff_iff, xor_iff_not_iff]

/-! ### The search -/

/-- An occurrence is at the front of a text or in what follows its first byte. -/
theorem exists_occurrence_cons {P : Text → Text → Prop} {rest : Text} :
    (∃ before after, b :: rest = before ++ word ++ after ∧ P before after) ↔
      (∃ after, b :: rest = word ++ after ∧ P [] after) ∨
        ∃ before after, rest = before ++ word ++ after ∧ P (b :: before) after := by
  constructor
  · rintro ⟨before, after, parts, holds⟩
    cases before with
    | nil => exact .inl ⟨after, parts, holds⟩
    | cons first before =>
      obtain ⟨rfl, same⟩ := List.cons_eq_cons.mp parts
      exact .inr ⟨before, after, same, holds⟩
  · rintro (⟨after, parts, holds⟩ | ⟨before, after, rfl, holds⟩)
    · exact ⟨[], after, parts, holds⟩
    · exact ⟨b :: before, after, rfl, holds⟩

theorem startsWithWord_iff (nonempty : word ≠ []) :
    startsWithWord word before.getLast? text = true ↔
    ∃ after, text = word ++ after ∧ Boundary before (word ++ after) ∧
      Boundary (before ++ word) after := by
  have last : (before ++ word).getLast? = word.getLast? := List.getLast?_append_of_ne_nil _ nonempty
  simp only [startsWithWord, Bool.and_eq_true, List.isPrefixOf_iff_prefix]
  constructor
  · rintro ⟨⟨⟨after, rfl⟩, left⟩, right⟩
    rw [List.drop_left] at right
    exact ⟨after, rfl, isBoundary_iff.mp left, isBoundary_iff.mp (last ▸ right)⟩
  · rintro ⟨after, rfl, left, right⟩
    rw [List.drop_left]
    exact ⟨⟨List.prefix_append _ _, isBoundary_iff.mpr left⟩, last ▸ isBoundary_iff.mpr right⟩

/-- What has been passed by counts as the text before. -/
theorem hasWordAfter_iff (nonempty : word ≠ []) : hasWordAfter word before.getLast? text = true ↔
    ∃ passed after, text = passed ++ word ++ after ∧ Boundary (before ++ passed) (word ++ after) ∧
      Boundary (before ++ passed ++ word) after := by
  induction text generalizing before with
  | nil =>
    refine iff_of_false ?_ ?_
    · cases word with
      | nil => contradiction
      | cons first rest => simp [hasWordAfter, startsWithWord]
    · rintro ⟨passed, after, parts, -⟩
      simp [nonempty] at parts
  | cons b rest ih =>
    have next : some b = (before ++ [b]).getLast? := by simp
    rw [exists_occurrence_cons (P := fun passed after =>
      Boundary (before ++ passed) (word ++ after) ∧ Boundary (before ++ passed ++ word) after)]
    simp only [hasWordAfter, Bool.or_eq_true, startsWithWord_iff nonempty, next, ih,
      List.append_nil,
      List.append_assoc, List.singleton_append]

theorem containsWord_iff : containsWord text word = true ↔
    word ≠ [] ∧ StandsIn word.lower text.lower := by
  rw [containsWord, Bool.and_eq_true, Bool.not_eq_true', List.isEmpty_eq_false_iff]
  refine and_congr_right (fun nonempty => ?_)
  have lowered : word.lower ≠ [] := by simpa [lower] using nonempty
  exact @hasWordAfter_iff text.lower word.lower [] lowered

/-! ### The words of a text -/

section Splitting
variable {α : Type} {p : α → Bool} {xs front part : List α}

theorem eq_takeWhile_iff : front = xs.takeWhile p ↔
    (∀ x ∈ front, p x = true) ∧ ∃ after, xs = front ++ after ∧ ∀ x ∈ after.head?, p x = false := by
  constructor
  · rintro rfl
    refine ⟨fun x member => List.mem_takeWhile_imp member, xs.dropWhile p,
      List.takeWhile_append_dropWhile.symm, ?_⟩
    intro x first
    have stopped := List.head?_dropWhile_not p xs
    rw [first] at stopped
    exact stopped
  · rintro ⟨inside, after, rfl, stop⟩
    rw [List.takeWhile_append_of_pos inside]
    cases after with
    | nil => simp
    | cons x after => simp [stop x rfl]

/-- The first part reaches to the first separator. -/
theorem splitOnP_front (xs : List α) :
    xs.splitOnP p = xs.takeWhile (fun x => !p x) :: (xs.splitOnP p).tail := by
  induction xs with
  | nil => rfl
  | cons x xs ih =>
    rw [List.splitOnP_cons_eq_if_modifyHead, ih]
    cases separates : p x <;> simp [separates]

/-- Every later part follows a separator and reaches to the next. -/
theorem mem_splitOnP : part ∈ xs.splitOnP p ↔ part = xs.takeWhile (fun x => !p x) ∨
    ∃ before separator rest, xs = before ++ separator :: rest ∧ p separator = true ∧
      part = rest.takeWhile (fun x => !p x) := by
  rw [splitOnP_front, List.mem_cons]
  refine or_congr_right ?_
  induction xs with
  | nil => simp
  | cons x xs ih =>
    have later : part ∈ ((x :: xs).splitOnP p).tail ↔
        p x = true ∧ part = xs.takeWhile (fun x => !p x) ∨ part ∈ (xs.splitOnP p).tail := by
      rw [List.splitOnP_cons_eq_if_modifyHead, splitOnP_front xs]
      cases p x <;> simp
    rw [later, ih]
    constructor
    · rintro (⟨separates, same⟩ | ⟨before, separator, rest, rfl, found⟩)
      · exact ⟨[], x, xs, rfl, separates, same⟩
      · exact ⟨x :: before, separator, rest, rfl, found⟩
    · rintro ⟨before, separator, rest, parts, found⟩
      cases before with
      | nil =>
        obtain ⟨rfl, rfl⟩ := List.cons_eq_cons.mp parts
        exact .inl found
      | cons first before =>
        obtain ⟨rfl, same⟩ := List.cons_eq_cons.mp parts
        exact .inr ⟨before, separator, rest, same, found⟩

end Splitting

theorem endsInWord_concat : EndsInWord (t ++ [b]) ↔ isWordByte b = true := by
  simp [EndsInWord]

theorem front_run : run = t.takeWhile isWordByte ↔
    (∀ b ∈ run, isWordByte b = true) ∧ ∃ after, t = run ++ after ∧ ¬after.StartsInWord := by
  simp only [eq_takeWhile_iff, StartsInWord, not_exists, not_and, Bool.not_eq_true]

/-- The words of a text are its longest runs of word bytes. -/
theorem mem_words : run ∈ words t ↔ IsRun run t := by
  simp only [words, List.mem_filter, mem_splitOnP, Bool.not_not, Bool.not_eq_true',
    List.isEmpty_eq_false_iff, front_run]
  rw [and_comm, IsRun]
  refine and_congr_right (fun _ => ?_)
  constructor
  · rintro (⟨inside, after, parts, stop⟩ | ⟨before, separator, rest, rfl, separates, inside, after,
      rfl, stop⟩)
    · exact ⟨inside, [], after, parts, nofun, stop⟩
    · refine ⟨inside, before ++ [separator], after, by simp, ?_, stop⟩
      rw [endsInWord_concat, separates]
      exact Bool.false_ne_true
  · rintro ⟨inside, before, after, rfl, start, stop⟩
    rcases List.eq_nil_or_concat before with rfl | ⟨earlier, separator, rfl⟩
    · exact .inl ⟨inside, after, rfl, stop⟩
    · rw [List.concat_eq_append, endsInWord_concat, Bool.not_eq_true] at start
      exact .inr ⟨earlier, separator, run ++ after, by simp, start, inside, after, rfl, stop⟩

/-- Word bytes stand between two boundaries where no other word byte is next to them. -/
theorem standsIn_iff_isRun (nonempty : word ≠ []) (inside : ∀ b ∈ word, isWordByte b = true) :
    StandsIn word text ↔ IsRun word text := by
  have starts (after : Text) : (word ++ after).StartsInWord :=
    ⟨word.head nonempty,
      by simp [List.head?_append, List.head?_eq_some_head nonempty], inside _ (List.head_mem _)⟩
  have ends (before : Text) : (before ++ word).EndsInWord :=
    ⟨word.getLast nonempty, by simp [List.getLast?_append, List.getLast?_eq_some_getLast nonempty],
      inside _ (List.getLast_mem _)⟩
  have left (before after : Text) : Boundary before (word ++ after) ↔ ¬before.EndsInWord := by
    simp [Boundary, Xor, starts]
  have right (before after : Text) : Boundary (before ++ word) after ↔ ¬after.StartsInWord := by
    simp [Boundary, Xor, ends]
  simp only [StandsIn, left, right]
  exact ⟨fun found => ⟨nonempty, inside, found⟩, fun run => run.2.2⟩

/-! ### Case -/

theorem isWordByte_lower (b : UInt8) : isWordByte (lowerByte b) = isWordByte b := by
  unfold lowerByte
  split
  next upper =>
    have range := isUpperByte_iff.mp upper
    have lowered : isLowerByte (b + 32) = true := by
      rw [isLowerByte_iff, UInt8.toNat_add]
      change 97 ≤ (b.toNat + 32) % 256 ∧ (b.toNat + 32) % 256 ≤ 122
      omega
    simp [isWordByte, isLetterByte, upper, lowered]
  next => rfl

/-- A search finds a word exactly if it stands in the text between two boundaries, either taken in
lower case, and never the empty word. A word of word bytes is found exactly if it is one of the
words of the text, which are its longest runs of word bytes. -/
theorem word_search_exact (text word : Text) :
    (containsWord text word = true ↔ word ≠ [] ∧ StandsIn word.lower text.lower) ∧
    ((∀ b ∈ word, isWordByte b = true) →
      (containsWord text word = true ↔ word.lower ∈ words text.lower)) ∧
    ∀ run, run ∈ words text.lower ↔ IsRun run text.lower := by
  refine ⟨containsWord_iff, fun inside => ?_, fun _ => mem_words⟩
  have lowered : ∀ b ∈ word.lower, isWordByte b = true := by
    intro b member
    obtain ⟨a, listed, rfl⟩ := List.mem_map.mp member
    rw [isWordByte_lower]
    exact inside a listed
  rw [containsWord_iff, mem_words]
  by_cases nonempty : word = []
  · subst nonempty
    exact iff_of_false (fun found => found.1 rfl) (fun found => found.1 rfl)
  · rw [standsIn_iff_isRun (by simpa [lower] using nonempty) lowered]
    exact and_iff_right nonempty

/-- The word is found after two places where it is part of a longer one. -/
theorem word_search_exact_later :
    let text := utf8 "x = sender(_send); // SEND!"
    (∀ b ∈ utf8 "Send", isWordByte b = true) ∧ containsWord text (utf8 "Send") = true ∧
      words text.lower = ["x", "sender", "_send", "send"].map utf8 ∧
        IsRun (utf8 "send") text.lower := by
  intro text
  have inside : ∀ b ∈ utf8 "Send", isWordByte b = true := List.all_eq_true.mp rfl
  have fallen : words text.lower = ["x", "sender", "_send", "send"].map utf8 := rfl
  have listed : (utf8 "Send").lower ∈ words text.lower := by
    rw [fallen]
    decide
  obtain ⟨_, found, runs⟩ := word_search_exact text (utf8 "Send")
  exact ⟨inside, (found inside).mpr listed, fallen, (runs _).mp listed⟩

end Text
end CodeAudit
