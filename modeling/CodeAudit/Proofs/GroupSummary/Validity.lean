import CodeAudit.Proofs.GroupSummary.Lines
import CodeAudit.Proofs.Text.Characters

/-! Listings in valid UTF-8. Title case, short names and the trimming of blanks never break a
character; cutting a result after so many bytes may. -/
namespace CodeAudit

namespace Text
variable {t : Text} {b mark : UInt8}

theorem isUtf8_utf8 (s : String) : IsUtf8 (utf8 s) := isUtf8_ofChars

theorem isBlankByte_small (blank : isBlankByte b = true) : b < 128 := by
  simp only [isBlankByte, Bool.or_eq_true, beq_iff_eq, Bool.and_eq_true, decide_eq_true_eq] at blank
  rcases blank with rfl | ⟨_, high⟩
  · decide
  · exact UInt8.lt_of_le_of_lt high (by decide)

theorem isUtf8_of_isBlank (blank : t.isBlank = true) : IsUtf8 t :=
  isUtf8_of_ascii fun b member => isBlankByte_small (List.all_eq_true.mp blank b member)

theorem isUtf8_trim : IsUtf8 t.trim ↔ IsUtf8 t := by
  obtain ⟨before, after, front, back, parts⟩ := trim_parts t
  calc
    IsUtf8 t.trim ↔ IsUtf8 (before ++ t.trim) := (isUtf8_of_isBlank front).append_iff_right.symm
    _ ↔ IsUtf8 (before ++ t.trim ++ after) := (isUtf8_of_isBlank back).append_iff_left.symm
    _ ↔ IsUtf8 t := by rw [← parts]

theorem afterLast_parts (mark : UInt8) (t : Text) :
    t.afterLast mark = t ∨ ∃ before, t = before ++ mark :: t.afterLast mark := by
  have parts : t.reverse.takeWhile (· != mark) ++ t.reverse.dropWhile (· != mark) = t.reverse :=
    List.takeWhile_append_dropWhile
  cases passed : t.reverse.dropWhile (· != mark) with
  | nil =>
    rw [passed, List.append_nil] at parts
    rw [afterLast, parts, List.reverse_reverse]
    exact .inl rfl
  | cons b before =>
    have stopped := List.head?_dropWhile_not (· != mark) t.reverse
    rw [passed, List.head?_cons] at stopped
    obtain rfl : b = mark := by simpa using stopped
    rw [passed] at parts
    refine .inr ⟨before.reverse, ?_⟩
    have turned := congrArg List.reverse parts
    rw [List.reverse_reverse, List.reverse_append, List.reverse_cons, List.append_assoc] at turned
    exact turned.symm

theorem IsUtf8.afterLast (valid : IsUtf8 t) (small : mark < 128) : IsUtf8 (t.afterLast mark) := by
  rcases afterLast_parts mark t with whole | ⟨before, parts⟩
  · rwa [whole]
  · have begins : ∀ b ∈ (mark :: t.afterLast mark).head?, b.IsUTF8FirstByte :=
      (isUtf8_singleton small).begins
    rw [parts, isUtf8_append begins, ← List.singleton_append,
      (isUtf8_singleton small).append_iff_right] at valid
    exact valid.2

end Text

namespace GroupSummary
open Text

variable {key result : Text} {task : Task} {tasks : List Task} {later : Bool}

theorem titleCaseFrom_alike : Alike (titleCaseFrom later key) key := by
  induction key generalizing later with
  | nil => exact .nil
  | cons b rest ih =>
    rw [titleCaseFrom_cons]
    refine .cons ((titleByte_range later b).imp_right fun range => ?_) ih
    rw [UInt8.lt_iff_toNat_lt, UInt8.lt_iff_toNat_lt, show (128 : UInt8).toNat = 128 from rfl]
    omega

theorem isUtf8_titleCase : IsUtf8 (titleCase key) ↔ IsUtf8 key := titleCaseFrom_alike.isUtf8_iff

/-- Of all that happens to a result only the cut can make it invalid. -/
theorem isUtf8_excerpt (valid : IsUtf8 result) : IsUtf8 (excerpt result) ↔
    ¬CutsCharacter excerptLength result := by
  have dots : IsUtf8 (if 100 < result.length then utf8 "..." else []) := by
    split
    · exact isUtf8_utf8 _
    · exact isUtf8_nil
  have replaced : Alike ((shortened result).map (fun b => if b = newline then 32 else b))
      (shortened result) := by
    rw [Alike, List.forall₂_map_left_iff, List.forall₂_same]
    intro b _
    split
    next line => exact .inr ⟨by decide, line ▸ by decide⟩
    next => exact .inl rfl
  rw [excerpt_eq, isUtf8_trim, replaced.isUtf8_iff, shortened, dots.append_iff_left, valid.take_iff]
  rfl

theorem isUtf8_listingLine (name : IsUtf8 task.name) (ruleKey : IsUtf8 task.ruleKey) :
    IsUtf8 (listingLine task) ↔ IsUtf8 (excerpt task.result) := by
  have short : IsUtf8 (shortName task.name) := name.afterLast (by decide)
  have title := isUtf8_titleCase.mpr ruleKey
  exact (((((isUtf8_utf8 _).append title).append (isUtf8_utf8 _)).append short).append
    (isUtf8_utf8 _)).append_iff_right

theorem isUtf8_listingLines : IsUtf8 (tasks.flatMap listingLine) ↔
    ∀ task ∈ tasks, IsUtf8 (listingLine task) := by
  induction tasks with
  | nil => exact iff_of_true isUtf8_nil nofun
  | cons task rest ih =>
    have begins : ∀ b ∈ (rest.flatMap listingLine).head?, b.IsUTF8FirstByte := by
      cases rest with
      | nil => nofun
      | cons next more => exact (isUtf8_singleton (by decide : newline < 128)).begins
    rw [List.flatMap_cons, isUtf8_append begins, ih, List.forall_mem_cons]

theorem isUtf8_listing (valid : ∀ task ∈ tasks, IsUtf8 task.name ∧ IsUtf8 task.ruleKey) :
    IsUtf8 (listing tasks) ↔ ∀ task ∈ tasks, IsUtf8 (excerpt task.result) := by
  have lines : IsUtf8 (listing tasks) ↔ IsUtf8 (tasks.flatMap listingLine) := by
    cases tasks with
    | nil => rfl
    | cons first rest => exact (isUtf8_utf8 _).append_iff_right
  rw [lines, isUtf8_listingLines]
  exact forall₂_congr fun task member =>
    isUtf8_listingLine (valid task member).1 (valid task member).2

/-- A listing of valid texts is valid exactly if no result has a character that the cut goes
through. -/
theorem listing_valid_iff (tasks : List Task)
    (valid : ∀ task ∈ tasks, IsUtf8 task.name ∧ IsUtf8 task.ruleKey ∧ IsUtf8 task.result) :
    IsUtf8 (listing tasks) ↔ ∀ task ∈ tasks, ¬CutsCharacter excerptLength task.result := by
  rw [isUtf8_listing fun task member => ⟨(valid task member).1, (valid task member).2.1⟩]
  exact forall₂_congr fun task member => isUtf8_excerpt (valid task member).2.2

/-- Its result has one character of two bytes, behind so many characters of one. -/
def accented (before : Nat) : Task :=
  { name := utf8 "A.f", ruleKey := utf8 "rule"
    result := ofChars (List.replicate before 'x' ++ 'é' :: List.replicate 20 'y') }

theorem accented_valid (before : Nat) : ∀ task ∈ [accented before],
    IsUtf8 task.name ∧ IsUtf8 task.ruleKey ∧ IsUtf8 task.result :=
  List.forall_mem_singleton.mpr ⟨isUtf8_utf8 _, isUtf8_utf8 _, isUtf8_ofChars⟩

/-- The cut comes right after the character of two bytes. -/
theorem listing_valid_iff_accented :
    excerptLength < (accented 98).result.length ∧
    (∀ task ∈ [accented 98], IsUtf8 task.name ∧ IsUtf8 task.ruleKey ∧ IsUtf8 task.result) ∧
    IsUtf8 (listing [accented 98]) := by
  have valid := accented_valid 98
  refine ⟨by decide, valid, (listing_valid_iff [accented 98] valid).mpr ?_⟩
  have front : (accented 98).result.take excerptLength =
      ofChars (List.replicate 98 'x' ++ ['é']) := by decide
  rw [List.forall_mem_singleton, ← (valid _ List.mem_cons_self).2.2.take_iff, front]
  exact isUtf8_ofChars

/-- One character more, and the cut leaves half of it. -/
theorem half_character_listed :
    (∀ task ∈ [accented 99], IsUtf8 task.name ∧ IsUtf8 task.ruleKey ∧ IsUtf8 task.result) ∧
    ¬IsUtf8 (listing [accented 99]) := by
  have valid := accented_valid 99
  obtain ⟨name, ruleKey, result⟩ := valid _ List.mem_cons_self
  refine ⟨valid, fun whole => ?_⟩
  rw [isUtf8_listing (List.forall_mem_singleton.mpr ⟨name, ruleKey⟩), List.forall_mem_singleton,
    isUtf8_excerpt result] at whole
  refine whole ⟨List.replicate 99 'x', 'é', List.replicate 20 'y', ?_, by decide, by decide⟩
  rw [accented, ofChars_append, ofChars_cons, List.append_assoc]

end GroupSummary
end CodeAudit
