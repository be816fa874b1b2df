import CodeAudit.Text
import Mathlib.Data.List.Forall2

/-! Texts that are the bytes of characters. Such a text falls into characters in one way only; it
may be cut where one of them begins and nowhere else. -/
namespace CodeAudit
namespace Text

def ofChars (chars : List Char) : Text := chars.flatMap String.utf8EncodeChar

def IsUtf8 (t : Text) : Prop := (List.toByteArray t).IsValidUTF8

/-- A place, counted in bytes, lies inside a character of the text. -/
def CutsCharacter (place : Nat) (t : Text) : Prop :=
  ∃ before c after, t = ofChars before ++ String.utf8EncodeChar c ++ ofChars after ∧
    (ofChars before).length < place ∧ place < (ofChars before).length + c.utf8Size

variable {t front back : Text} {chars before after : List Char} {b : UInt8} {c : Char} {place : Nat}

theorem ofChars_cons : ofChars (c :: chars) = String.utf8EncodeChar c ++ ofChars chars :=
  List.flatMap_cons

theorem ofChars_append : ofChars (before ++ after) = ofChars before ++ ofChars after :=
  List.flatMap_append

theorem isUtf8_iff : IsUtf8 t ↔ ∃ chars, t = ofChars chars := by
  constructor
  · rintro ⟨chars, same⟩
    exact ⟨chars, List.toByteArray_inj.mp same⟩
  · rintro ⟨chars, rfl⟩
    exact ⟨chars, rfl⟩

theorem isUtf8_ofChars : IsUtf8 (ofChars chars) := isUtf8_iff.mpr ⟨chars, rfl⟩

theorem isUtf8_nil : IsUtf8 [] := isUtf8_iff.mpr ⟨[], rfl⟩

theorem isUtf8_encoded : IsUtf8 (String.utf8EncodeChar c) :=
  isUtf8_iff.mpr ⟨[c], (List.flatMap_singleton _ _).symm⟩

theorem IsUtf8.append (valid : IsUtf8 front) (next : IsUtf8 back) : IsUtf8 (front ++ back) := by
  obtain ⟨before, rfl⟩ := isUtf8_iff.mp valid
  obtain ⟨after, rfl⟩ := isUtf8_iff.mp next
  rw [← ofChars_append]
  exact isUtf8_ofChars

/-! ### Where characters begin -/

/-- No character begins inside another one. -/
theorem encoded_split (split : String.utf8EncodeChar c = front ++ b :: back)
    (begins : b.IsUTF8FirstByte) :
    front = [] := by
  have inside : front.length < (String.utf8EncodeChar c).length := by
    rw [split, List.length_append, List.length_cons]
    omega
  have here : (String.utf8EncodeChar c)[front.length] = b := by simp [split]
  rw [← here, UInt8.isUTF8FirstByte_getElem_utf8EncodeChar] at begins
  exact List.eq_nil_of_length_eq_zero begins

theorem IsUtf8.begins (valid : IsUtf8 t) : ∀ b ∈ t.head?, b.IsUTF8FirstByte := by
  obtain ⟨chars, rfl⟩ := isUtf8_iff.mp valid
  cases chars with
  | nil => nofun
  | cons c rest =>
    intro b first
    have some : 0 < (String.utf8EncodeChar c).length :=
      List.length_pos_of_ne_nil String.utf8EncodeChar_ne_nil
    have here : (String.utf8EncodeChar c)[0] = b := by
      rw [ofChars_cons, List.head?_append_of_ne_nil _ String.utf8EncodeChar_ne_nil,
        List.head?_eq_getElem?,
        List.getElem?_eq_getElem some] at first
      exact Option.some.inj first
    rw [← here]
    exact UInt8.isUTF8FirstByte_getElem_utf8EncodeChar.mpr rfl

theorem ofChars_split (split : ofChars chars = front ++ back)
    (begins : ∀ b ∈ back.head?, b.IsUTF8FirstByte) :
    IsUtf8 front ∧ IsUtf8 back := by
  induction chars generalizing front with
  | nil =>
    obtain ⟨rfl, rfl⟩ := List.append_eq_nil_iff.mp split.symm
    exact ⟨isUtf8_nil, isUtf8_nil⟩
  | cons c rest ih =>
    rw [ofChars_cons] at split
    rcases List.append_eq_append_iff.mp split with ⟨more, rfl, same⟩ | ⟨part, whole, rfl⟩
    · obtain ⟨valid, next⟩ := ih same
      exact ⟨isUtf8_encoded.append valid, next⟩
    · cases part with
      | nil =>
        rw [List.append_nil] at whole
        exact ⟨whole ▸ isUtf8_encoded, isUtf8_ofChars⟩
      | cons b part =>
        obtain rfl := encoded_split whole (begins b rfl)
        rw [List.nil_append] at whole
        exact ⟨isUtf8_nil, whole ▸ isUtf8_encoded.append isUtf8_ofChars⟩

/-- A text may be cut before a byte that a character can begin with. -/
theorem isUtf8_append (begins : ∀ b ∈ back.head?, b.IsUTF8FirstByte) :
    IsUtf8 (front ++ back) ↔ IsUtf8 front ∧ IsUtf8 back := by
  refine ⟨fun valid => ?_, fun valid => valid.1.append valid.2⟩
  obtain ⟨chars, same⟩ := isUtf8_iff.mp valid
  exact ofChars_split same.symm begins

theorem IsUtf8.append_iff_left (valid : IsUtf8 back) : IsUtf8 (front ++ back) ↔ IsUtf8 front :=
  (isUtf8_append valid.begins).trans (and_iff_left valid)

/-- The bytes of a character are read back as that character, whatever follows them. -/
theorem encoded_append_inj {d : Char}
    (same : String.utf8EncodeChar c ++ front = String.utf8EncodeChar d ++ back) :
    c = d ∧ front = back := by
  have read := congrArg (fun t => (List.toByteArray t).utf8DecodeChar? 0) same
  simp only [List.toByteArray_append, ByteArray.utf8DecodeChar?_utf8EncodeChar_append,
    Option.some.injEq] at read
  subst read
  exact ⟨rfl, List.append_cancel_left same⟩

theorem IsUtf8.append_iff_right (valid : IsUtf8 front) : IsUtf8 (front ++ back) ↔ IsUtf8 back := by
  refine ⟨fun whole => ?_, valid.append⟩
  obtain ⟨before, rfl⟩ := isUtf8_iff.mp valid
  clear valid
  induction before with
  | nil => exact whole
  | cons c rest ih =>
    apply ih
    rw [ofChars_cons, List.append_assoc] at whole
    obtain ⟨_ | ⟨d, others⟩, same⟩ := isUtf8_iff.mp whole
    · exact absurd (List.append_eq_nil_iff.mp same).1 String.utf8EncodeChar_ne_nil
    · rw [ofChars_cons] at same
      obtain ⟨_, same⟩ := encoded_append_inj same
      exact same ▸ isUtf8_ofChars

/-! ### Cutting a text -/

theorem CutsCharacter.cons (cuts : CutsCharacter place (ofChars chars)) :
    CutsCharacter (c.utf8Size + place) (ofChars (c :: chars)) := by
  obtain ⟨before, d, after, same, low, high⟩ := cuts
  refine ⟨c :: before, d, after, ?_, ?_, ?_⟩
  · rw [ofChars_cons, ofChars_cons, same]
    simp only [List.append_assoc]
  · rw [ofChars_cons, List.length_append, String.length_utf8EncodeChar]
    omega
  · rw [ofChars_cons, List.length_append, String.length_utf8EncodeChar]
    omega

theorem isUtf8_take_ofChars (uncut : ¬CutsCharacter place (ofChars chars)) :
    IsUtf8 ((ofChars chars).take place) := by
  induction chars generalizing place with
  | nil =>
    rw [show ofChars [] = [] from rfl, List.take_nil]
    exact isUtf8_nil
  | cons c rest ih =>
    rcases Nat.lt_or_ge place c.utf8Size with inside | beyond
    · rcases Nat.eq_zero_or_pos place with rfl | positive
      · exact isUtf8_nil
      · refine absurd ⟨[], c, rest, ofChars_cons, positive, ?_⟩ uncut
        rwa [show (ofChars []).length = 0 from rfl, Nat.zero_add]
    · obtain ⟨further, rfl⟩ := Nat.exists_eq_add_of_le beyond
      rw [ofChars_cons, ← String.length_utf8EncodeChar c, List.take_length_add_append]
      exact isUtf8_encoded.append (ih fun cuts => uncut cuts.cons)

theorem CutsCharacter.not_isUtf8_drop (cuts : CutsCharacter place t) : ¬IsUtf8 (t.drop place) := by
  obtain ⟨before, c, after, rfl, low, high⟩ := cuts
  obtain ⟨further, rfl⟩ := Nat.exists_eq_add_of_lt low
  intro valid
  rw [List.append_assoc, Nat.add_assoc, List.drop_length_add_append,
    List.drop_append_of_le_length (by rw [String.length_utf8EncodeChar]; omega)] at valid
  cases rest : (String.utf8EncodeChar c).drop (further + 1) with
  | nil =>
    have short := List.drop_eq_nil_iff.mp rest
    rw [String.length_utf8EncodeChar] at short
    omega
  | cons b part =>
    rw [rest] at valid
    have whole : String.utf8EncodeChar c = (String.utf8EncodeChar c).take (further + 1) ++ b ::
        part := by
      rw [← rest, List.take_append_drop]
    have none := encoded_split whole (valid.begins b rfl)
    rcases List.take_eq_nil_iff.mp none with zero | empty
    · contradiction
    · exact String.utf8EncodeChar_ne_nil empty

/-- What stands before a place is valid unless the place lies inside a character. -/
theorem IsUtf8.take_iff (valid : IsUtf8 t) : IsUtf8 (t.take place) ↔ ¬CutsCharacter place t := by
  constructor
  · intro front cuts
    rw [← List.take_append_drop place t, front.append_iff_right] at valid
    exact cuts.not_isUtf8_drop valid
  · obtain ⟨chars, rfl⟩ := isUtf8_iff.mp valid
    exact isUtf8_take_ofChars

/-! ### Bytes that are characters of their own -/

theorem encoded_ascii (small : b < 128) : String.utf8EncodeChar (Char.ofNat b.toNat) = [b] := by
  have low : b.toNat < 128 := UInt8.lt_iff_toNat_lt.mp small
  have scalar : b.toNat.isValidChar := .inl (by omega)
  have value : (Char.ofNat b.toNat).val.toNat = b.toNat := by
    rw [Char.ofNat, dif_pos scalar]
    rfl
  rw [String.utf8EncodeChar, value, if_pos (by omega), UInt8.ofNat_toNat]

theorem isUtf8_singleton (small : b < 128) : IsUtf8 [b] := encoded_ascii small ▸ isUtf8_encoded

theorem isUtf8_of_ascii (small : ∀ b ∈ t, b < 128) : IsUtf8 t := by
  induction t with
  | nil => exact isUtf8_nil
  | cons b rest ih =>
    have next : IsUtf8 rest := ih fun d member => small d (List.mem_cons_of_mem b member)
    exact (isUtf8_singleton (small b List.mem_cons_self)).append next

theorem encoded_eq_singleton (member : b ∈ String.utf8EncodeChar c) (small : b < 128) :
    String.utf8EncodeChar c = [b] := by
  obtain ⟨front, back, split⟩ := List.append_of_mem member
  obtain rfl := encoded_split split ((isUtf8_singleton small).begins b rfl)
  have same : String.utf8EncodeChar c ++ [] = String.utf8EncodeChar (Char.ofNat b.toNat) ++
      back := by
    rw [encoded_ascii small, List.append_nil, split, List.nil_append, List.singleton_append]
  rw [(encoded_append_inj same).1, encoded_ascii small]

def Alike : Text → Text → Prop := List.Forall₂ (fun b d => b = d ∨ b < 128 ∧ d < 128)

theorem Alike.symm {u : Text} (alike : Alike t u) : Alike u t :=
  alike.flip.imp fun _ _ => Or.imp Eq.symm And.symm

theorem Alike.isUtf8_encoded (alike : Alike t (String.utf8EncodeChar c)) : IsUtf8 t := by
  by_cases short : ∃ b ∈ String.utf8EncodeChar c, b < 128
  · obtain ⟨b, member, small⟩ := short
    rw [encoded_eq_singleton member small] at alike
    obtain ⟨d, others, same, none, rfl⟩ := List.forall₂_cons_right_iff.mp alike
    obtain rfl := List.forall₂_nil_right_iff.mp none
    exact isUtf8_singleton (same.elim (fun same => same ▸ small) And.left)
  · have same : t = String.utf8EncodeChar c := by
      obtain ⟨long, each⟩ := List.forall₂_iff_zip.mp alike
      rw [← List.forall₂_eq_eq_eq, List.forall₂_iff_zip]
      refine ⟨long, fun {b d} pair => (each pair).resolve_right fun small => ?_⟩
      exact short ⟨d, (List.of_mem_zip pair).2, small.2⟩
    exact same ▸ Text.isUtf8_encoded

theorem Alike.isUtf8 {u : Text} (alike : Alike t u) (valid : IsUtf8 u) : IsUtf8 t := by
  obtain ⟨chars, rfl⟩ := isUtf8_iff.mp valid
  clear valid
  induction chars generalizing t with
  | nil =>
    obtain rfl := List.forall₂_nil_right_iff.mp alike
    exact isUtf8_nil
  | cons c rest ih =>
    rw [ofChars_cons] at alike
    have first : Alike _ (String.utf8EncodeChar c) := List.forall₂_take_append _ _ _ alike
    have others : Alike _ (ofChars rest) := List.forall₂_drop_append _ _ _ alike
    rw [← List.take_append_drop (String.utf8EncodeChar c).length t]
    exact first.isUtf8_encoded.append (ih others)

theorem Alike.isUtf8_iff {u : Text} (alike : Alike t u) : IsUtf8 t ↔ IsUtf8 u :=
  ⟨alike.symm.isUtf8, alike.isUtf8⟩

end Text
end CodeAudit
