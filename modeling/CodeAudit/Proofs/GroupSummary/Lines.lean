import CodeAudit.GroupSummary
import CodeAudit.Proofs.Settings.Numerals
import Mathlib.Data.List.DropRight
import Mathlib.Data.List.Forall2

/-! The lines of a listing: a header and one for each task. A result shows on the line of its task
alone, cut down to an excerpt, whatever it consists of. -/
namespace CodeAudit

namespace Text
variable {t : Text} {b : UInt8}

/-- Neither the first byte is a blank nor the last. -/
structure Trimmed (t : Text) : Prop where
  first : ∀ b ∈ t.head?, isBlankByte b = false
  last : ∀ b ∈ t.getLast?, isBlankByte b = false

theorem dropTrailingBlanks_parts (t : Text) :
    ∃ after : Text, after.isBlank = true ∧ t = t.dropTrailingBlanks ++ after :=
  ⟨t.rtakeWhile isBlankByte, List.all_eq_true.mpr fun _ => List.mem_rtakeWhile_imp,
    List.rdropWhile_append_rtakeWhile.symm⟩

/-- Only blanks are dropped. -/
theorem trim_parts (t : Text) :
    ∃ before after : Text, before.isBlank = true ∧ after.isBlank = true ∧
      t = before ++ t.trim ++ after := by
  obtain ⟨after, blank, parts⟩ := dropTrailingBlanks_parts (t.dropWhile isBlankByte)
  refine ⟨t.takeWhile isBlankByte, after, ?_, blank, ?_⟩
  · exact List.all_eq_true.mpr fun _ => List.mem_takeWhile_imp
  · rw [List.append_assoc, trim, ← parts, List.takeWhile_append_dropWhile]

theorem trim_trimmed (t : Text) : t.trim.Trimmed where
  first := by
    intro b first
    obtain ⟨after, _, parts⟩ := dropTrailingBlanks_parts (t.dropWhile isBlankByte)
    have front : (t.dropWhile isBlankByte).head? = some b := by
      rw [parts]
      exact (List.head?_append_of_ne_nil _ (List.ne_nil_of_mem (List.mem_of_mem_head? first))).trans
        first
    have stopped := List.head?_dropWhile_not isBlankByte t
    rw [front] at stopped
    exact stopped
  last := by
    intro b last
    rw [trim, dropTrailingBlanks, List.getLast?_reverse] at last
    have stopped := List.head?_dropWhile_not isBlankByte (t.dropWhile isBlankByte).reverse
    rw [last] at stopped
    exact stopped

theorem length_trim_le (t : Text) : t.trim.length ≤ t.length := by
  obtain ⟨before, after, _, _, parts⟩ := trim_parts t
  have sizes := congrArg List.length parts
  rw [List.length_append, List.length_append] at sizes
  omega

theorem afterLast_suffix (mark : UInt8) (t : Text) : t.afterLast mark <:+ t := by
  rw [← List.reverse_prefix, afterLast, List.reverse_reverse]
  exact List.takeWhile_prefix _

end Text

namespace GroupSummary

def titleByte (behindLetter : Bool) (b : UInt8) : UInt8 :=
  if b = 95 then 32 else if behindLetter then lowerByte b else upperByte b

/-- Byte by byte, the title has lower case behind a letter and upper case elsewhere, and spaces for
underscores. -/
structure TitleCases (key title : Text) : Prop where
  byte : ∀ place, title[place]? = key[place]?.map
    (titleByte ((key.take place).getLast?.any isLetterByte))

/-- The front of a result, with dots if that is not all of it. -/
def shortened (result : Text) : Text :=
  result.take 100 ++ if 100 < result.length then utf8 "..." else []

/-- An excerpt of a result is what its front, with spaces for newlines, has between the blanks at
its ends. -/
structure Excerpts (result part : Text) : Prop where
  trimmed : part.Trimmed
  short : part.length ≤ 103
  shown : ∃ before after : Text, before.isBlank = true ∧ after.isBlank = true ∧
    (shortened result).map (fun b => if b = Text.newline then 32 else b) = before ++ part ++ after

def Reports (task : Task) (line : Text) : Prop :=
  ∃ title part, TitleCases task.ruleKey title ∧ Excerpts task.result part ∧
    line = utf8 "- " ++ title ++ utf8 " in " ++ shortName task.name ++ utf8 ": " ++ part

variable {key title result part : Text} {task : Task} {tasks : List Task} {b : UInt8} {later : Bool}

/-! ### Titles -/

/-- Only letters and underscores change, into letters and spaces. -/
theorem titleByte_range (later : Bool) (b : UInt8) : titleByte later b = b ∨
    (65 ≤ b.toNat ∧ b.toNat ≤ 122) ∧ 32 ≤ (titleByte later b).toNat ∧
      (titleByte later b).toNat ≤ 122 := by
  unfold titleByte lowerByte upperByte
  split
  next underscore => exact .inr (by subst underscore; decide)
  split
  · split
    next upper =>
      have range := isUpperByte_iff.mp upper
      rw [UInt8.toNat_add, show (32 : UInt8).toNat = 32 from rfl]
      omega
    next => exact .inl rfl
  · split
    next lower =>
      have range := isLowerByte_iff.mp lower
      rw [UInt8.toNat_sub, show (32 : UInt8).toNat = 32 from rfl]
      omega
    next => exact .inl rfl

theorem titleByte_other (other : isLetterByte b = false) (different : b ≠ 95) :
    titleByte later b = b := by
  rw [isLetterByte, Bool.or_eq_false_iff] at other
  rw [titleByte, if_neg different, lowerByte, upperByte, other.1, other.2]
  cases later <;> rfl

theorem titleCaseFrom_cons : titleCaseFrom later (b :: key) =
    titleByte later b :: titleCaseFrom (isLetterByte b) key := by
  rw [titleCaseFrom]
  by_cases underscore : b = 95
  · subst underscore
    rfl
  · simp only [if_neg underscore]
    split
    next letter => rw [titleByte, if_neg underscore, letter]
    next other =>
      rw [Bool.not_eq_true] at other
      rw [titleByte_other other underscore, other]

theorem titleCaseFrom_getElem? (place : Nat) : (titleCaseFrom later key)[place]? =
    key[place]?.map
      (titleByte (if place = 0 then later else (key.take place).getLast?.any isLetterByte)) := by
  induction key generalizing later place with
  | nil => rfl
  | cons b rest ih =>
    rw [titleCaseFrom_cons]
    cases place with
    | zero => rfl
    | succ place =>
      rw [List.getElem?_cons_succ, List.getElem?_cons_succ, ih, if_neg (Nat.succ_ne_zero place),
        List.take_succ_cons]
      cases rest with
      | nil => rfl
      | cons d more => cases place <;> rfl

theorem titleCase_titleCases (key : Text) : TitleCases key (titleCase key) where
  byte place := by
    rw [titleCase, titleCaseFrom_getElem?]
    split
    next front => subst front; rfl
    next => rfl

theorem TitleCases.plain (cased : TitleCases key title) (plain : Text.newline ∉ key) :
    Text.newline ∉ title := by
  intro member
  obtain ⟨place, found⟩ := List.mem_iff_getElem?.mp member
  rw [cased.byte place] at found
  obtain ⟨b, here, changed⟩ := Option.map_eq_some_iff.mp found
  rcases titleByte_range _ b with same | ⟨_, large, _⟩
  · rw [changed] at same
    exact plain (same ▸ List.mem_of_getElem? here)
  · rw [changed] at large
    contradiction

/-! ### Excerpts -/

theorem length_shortened_le (result : Text) : (shortened result).length ≤ 103 := by
  rw [shortened, List.length_append]
  have front := List.length_take_le 100 result
  split
  · exact Nat.add_le_add_right front 3
  · rw [List.length_nil]
    omega

theorem excerpt_eq (result : Text) :
    excerpt result = Text.trim
      ((shortened result).map (fun b => if b = Text.newline then 32 else b)) := by
  unfold excerpt shortened excerptLength
  split
  next => rfl
  next whole => rw [List.take_of_length_le (Nat.not_lt.mp whole), List.append_nil]

theorem excerpt_excerpts (result : Text) : Excerpts result (excerpt result) := by
  rw [excerpt_eq]
  refine ⟨Text.trim_trimmed _, ?_, Text.trim_parts _⟩
  have shorter :=
    Text.length_trim_le ((shortened result).map (fun b => if b = Text.newline then 32 else b))
  rw [List.length_map] at shorter
  exact shorter.trans (length_shortened_le result)

theorem Excerpts.plain (excerpts : Excerpts result part) : Text.newline ∉ part := by
  intro member
  obtain ⟨before, after, _, _, parts⟩ := excerpts.shown
  have shown : Text.newline ∈ before ++ part ++ after :=
    List.mem_append_left _ (List.mem_append_right _ member)
  rw [← parts] at shown
  obtain ⟨b, _, replaced⟩ := List.mem_map.mp shown
  split at replaced
  · contradiction
  next other => exact other replaced

/-! ### Listings -/

def reportLine (task : Task) : Text :=
  utf8 "- " ++ titleCase task.ruleKey ++ utf8 " in " ++ shortName task.name ++ utf8 ": " ++
    excerpt task.result

theorem reportLine_reports (task : Task) : Reports task (reportLine task) :=
  ⟨titleCase task.ruleKey, excerpt task.result, titleCase_titleCases _, excerpt_excerpts _, rfl⟩

theorem Reports.plain {line : Text} (reports : Reports task line)
    (ruleKey : Text.newline ∉ task.ruleKey) (name : Text.newline ∉ task.name) :
    Text.newline ∉ line := by
  obtain ⟨title, part, cased, excerpts, rfl⟩ := reports
  have short : Text.newline ∉ shortName task.name :=
    fun member => name ((Text.afterLast_suffix _ _).subset member)
  simp only [List.mem_append, not_or]
  exact ⟨⟨⟨⟨⟨by decide, cased.plain ruleKey⟩, by decide⟩, short⟩, by decide⟩, excerpts.plain⟩

theorem intercalate_cons (mark : UInt8) (first : Text) (rest : List Text) :
    [mark].intercalate (first :: rest) = first ++ rest.flatMap (mark :: ·) := by
  induction rest generalizing first with
  | nil => simp
  | cons next more ih => rw [List.intercalate_cons_cons, ih, List.flatMap_cons]; simp

theorem listing_eq (some : tasks ≠ []) :
    listing tasks = [Text.newline].intercalate
      (utf8 "**Found Issues:**" :: tasks.map reportLine) := by
  obtain ⟨first, rest, rfl⟩ := List.exists_cons_of_ne_nil some
  rw [intercalate_cons, List.flatMap_map]
  rfl

/-- A listing of tasks whose names and rule keys stay on one line has one line for each of them, in
their order and below a header. The results may hold any bytes at all. -/
theorem listing_lines (tasks : List Task) (some : tasks ≠ [])
    (plain : ∀ task ∈ tasks, Text.newline ∉ task.ruleKey ∧ Text.newline ∉ task.name) :
    ∃ lines, (listing tasks).splitOn Text.newline = utf8 "**Found Issues:**" :: lines ∧
      List.Forall₂ Reports tasks lines := by
  refine ⟨tasks.map reportLine, ?_, ?_⟩
  · rw [listing_eq some]
    refine List.splitOn_intercalate _ ?_ (List.cons_ne_nil _ _)
    rw [List.forall_mem_cons, List.forall_mem_map]
    refine ⟨by decide, fun task member => ?_⟩
    obtain ⟨ruleKey, name⟩ := plain task member
    exact (reportLine_reports task).plain ruleKey name
  · rw [List.forall₂_map_right_iff, List.forall₂_same]
    exact fun task _ => reportLine_reports task

/-- A result that tries to pass for the line of another task. -/
def forger : Task :=
  { name := utf8 "Vault.withdraw", ruleKey := utf8 "access_control",
    result := utf8 "none\n- Overflow in deposit: high\n" }

theorem listing_lines_forger :
    Text.newline ∈ forger.result ∧ [forger] ≠ [] ∧
    (∀ task ∈ [forger], Text.newline ∉ task.ruleKey ∧ Text.newline ∉ task.name) ∧
    ∃ lines, (listing [forger]).splitOn Text.newline = utf8 "**Found Issues:**" :: lines ∧
      List.Forall₂ Reports [forger] lines := by
  have some : [forger] ≠ [] := List.cons_ne_nil _ _
  have plain : ∀ task ∈ [forger], Text.newline ∉ task.ruleKey ∧ Text.newline ∉ task.name := by
    rintro task (_ | ⟨_, ⟨⟩⟩)
    decide
  exact ⟨by decide, some, plain, listing_lines [forger] some plain⟩

example : (listing [forger]).splitOn Text.newline =
    [utf8 "**Found Issues:**",
      utf8 "- Access Control in withdraw: none - Overflow in deposit: high"] := by decide

end GroupSummary
end CodeAudit
