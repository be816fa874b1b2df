import CodeAudit.Proofs.Settings.Scalars
import Mathlib.Data.List.Forall2
import Mathlib.Data.List.Pairwise
import Mathlib.Data.List.Perm.Subperm

/-! Records written as mappings and read back. A record is laid out as settings that do not touch
each other; a mapping that writes each at most once, in any order and under either of its keys, is
read back as soon as the values of all are. -/
namespace CodeAudit
namespace Settings

/-- A kind of values: how documents write them, what is read of a document over an earlier value,
which values can be written at all and which are legible, that is, come back. -/
structure Kind (β : Type) where
  unset : β
  read : Document → β → Option β
  Writes : β → Document → Prop
  Writable : β → Prop
  Legible : β → Prop
  writes : ∀ {x}, Writable x → x = unset ∨ ∃ d, Writes x d
  legible_unset : Legible unset
  not_null : ∀ {x d}, Writes x d → d.isNull = false
  encodable : ∀ {x d}, Writes x d → Legible x → isEncodable d = true
  read_legible : ∀ {x d}, Writes x d → Legible x → read d unset = some x
  read_illegible : ∀ {x d}, Writes x d → ¬Legible x → ∀ y, read d y = none

/-- One setting of a record. -/
structure Item (α : Type) where
  underscored : String
  camel : String
  {Value : Type}
  kind : Kind Value
  get : α → Value
  put : Value → α → α
  get_put : ∀ x a, get (put x a) = x

namespace Item

variable {α : Type}

/-- What reading the setting makes of a record. -/
def set (item : Item α) (d : Document) (a : α) : Option α :=
  (item.kind.read d (item.get a)).map (fun x => item.put x a)

/-- Neither setting changes with the other. -/
def Independent (i j : Item α) : Prop :=
  (∀ x a, i.get (j.put x a) = i.get a) ∧ ∀ x a, j.get (i.put x a) = j.get a

/-- A field that writes the setting as a record has it. -/
def Field (a : α) (item : Item α) (field : Text × Document) : Prop :=
  isKey field.1 item.underscored item.camel = true ∧ item.kind.Writes (item.get a) field.2

theorem Independent.symm {i j : Item α} (apart : i.Independent j) : j.Independent i :=
  ⟨apart.2, apart.1⟩

instance : Std.Symm (Independent (α := α)) := ⟨fun _ _ => Independent.symm⟩

end Item

theorem isKey_iff {key : Text} {underscored camel : String} :
    isKey key underscored camel = true ↔ key = utf8 underscored ∨ key = utf8 camel := by
  simp [isKey]

/-- The settings of a record, which reading knows under both keys, which do not touch each other and
which are all there is to the record. For a record that is spelled out all four facts are
computed. -/
structure Layout (α : Type) where
  items : List (Item α)
  unset : α
  field? : Text → Option (Document → α → Option α)
  known : ∀ item ∈ items, ∀ key, isKey key item.underscored item.camel = true →
    field? key = some item.set := by
    simp only [List.forall_mem_cons, isKey_iff, List.not_mem_nil, false_implies,
      implies_true, and_true]
    and_intros
    all_goals
      rintro _ (rfl | rfl)
      all_goals rfl
  start : ∀ item ∈ items, item.get unset = item.kind.unset := by
    simp only [List.forall_mem_cons, List.not_mem_nil, false_implies, implies_true, and_true]
    and_intros
    all_goals rfl
  independent : items.Pairwise Item.Independent := by
    simp [Item.Independent]
  ext : ∀ {a b}, (∀ item ∈ items, item.get a = item.get b) → a = b := by
    rintro ⟨⟩ ⟨⟩ same
    simpa using same

namespace Layout

variable {α : Type} {layout : Layout α} {a : α} {given : List (Item α)}
  {fields : List (Text × Document)}

/-- The mapping writes some settings of the record, each once, and the record has no others set. -/
def Writes (layout : Layout α) (a : α) (d : Document) : Prop :=
  ∃ given fields, d = .mapping fields ∧ given.Subperm layout.items ∧
    List.Forall₂ (Item.Field a) given fields ∧
    ∀ item ∈ layout.items, item ∈ given ∨ item.get a = item.kind.unset

def Writable (layout : Layout α) (a : α) : Prop :=
  ∀ item ∈ layout.items, item.kind.Writable (item.get a)

def Legible (layout : Layout α) (a : α) : Prop :=
  ∀ item ∈ layout.items, item.kind.Legible (item.get a)

theorem exists_writes (writable : layout.Writable a) : ∃ d, layout.Writes a d := by
  have given (items : List (Item α)) (writable : ∀ item ∈ items, item.kind.Writable (item.get a)) :
      ∃ given fields, given.Sublist items ∧ List.Forall₂ (Item.Field a) given fields ∧
        ∀ item ∈ items, item ∈ given ∨ item.get a = item.kind.unset := by
    induction items with
    | nil => exact ⟨[], [], .slnil, .nil, nofun⟩
    | cons item items ih =>
      obtain ⟨here, writable⟩ := List.forall_mem_cons.mp writable
      obtain ⟨given, fields, sublist, matched, rest⟩ := ih writable
      rcases item.kind.writes here with unset | ⟨d, written⟩
      · exact ⟨given, fields, sublist.cons item, matched,
          List.forall_mem_cons.mpr ⟨.inr unset, rest⟩⟩
      · refine ⟨item :: given, (utf8 item.underscored, d) :: fields, sublist.cons_cons item,
          .cons ⟨isKey_iff.mpr (.inl rfl), written⟩ matched,
            List.forall_mem_cons.mpr ⟨.inl List.mem_cons_self, ?_⟩⟩
        exact fun other later => (rest other later).imp_left (List.mem_cons_of_mem item)
  obtain ⟨given, fields, sublist, matched, rest⟩ := given layout.items writable
  exact ⟨.mapping fields, given, fields, rfl, sublist.subperm, matched, rest⟩

theorem readFields_field {item : Item α} {field : Text × Document} (listed : item ∈ layout.items)
    (written : item.Field a field) (start : α) :
    readFields layout.field? (.mapping (field :: fields)) start =
      (item.set field.2 start).bind (readFields layout.field? (.mapping fields)) := by
  simp [readFields, layout.known item listed field.1 written.1, item.kind.not_null written.2]
  rfl

/-- After the given fields their settings are the record's, and every setting independent of them is
as before. -/
theorem readFields_legible (written : List.Forall₂ (Item.Field a) given fields)
    (listed : ∀ item ∈ given, item ∈ layout.items) (apart : given.Pairwise Item.Independent)
    (legible : ∀ item ∈ given, item.kind.Legible (item.get a)) :
    ∀ start, (∀ item ∈ given, item.get start = item.kind.unset) →
      ∃ result, readFields layout.field? (.mapping fields) start = some result ∧
        (∀ item ∈ given, item.get result = item.get a) ∧
        ∀ other : Item α, (∀ item ∈ given, other.Independent item) →
          other.get result = other.get start := by
  induction written with
  | nil => exact fun start _ => ⟨start, rfl, nofun, fun _ _ => rfl⟩
  | @cons item field given fields written _ ih =>
    intro start unset
    obtain ⟨fromHead, apart⟩ := List.pairwise_cons.mp apart
    obtain ⟨headListed, listed⟩ := List.forall_mem_cons.mp listed
    obtain ⟨headLegible, legible⟩ := List.forall_mem_cons.mp legible
    obtain ⟨headUnset, unset⟩ := List.forall_mem_cons.mp unset
    have next : item.set field.2 start = some (item.put (item.get a) start) := by
      rw [Item.set, headUnset, item.kind.read_legible written.2 headLegible, Option.map_some]
    -- The later settings do not touch the head's, so that they find theirs unset as before.
    have stillUnset : ∀ other ∈ given, other.get (item.put (item.get a) start) = other.kind.unset :=
      fun other later =>
      ((fromHead other later).2 _ _).trans (unset other later)
    obtain ⟨result, read, same, kept⟩ := ih listed apart legible _ stillUnset
    refine ⟨result, ?_, List.forall_mem_cons.mpr ⟨?_, same⟩, fun other away => ?_⟩
    · rw [readFields_field headListed written, next, Option.bind_some, read]
    · rw [kept item fromHead, item.get_put]
    · obtain ⟨fromItem, away⟩ := List.forall_mem_cons.mp away
      rw [kept other away, fromItem.1]

/-- One given value that is not legible, and nothing is read. -/
theorem readFields_illegible (written : List.Forall₂ (Item.Field a) given fields)
    (listed : ∀ item ∈ given, item ∈ layout.items) {item : Item α} (member : item ∈ given)
    (illegible : ¬item.kind.Legible (item.get a)) :
    ∀ start, readFields layout.field? (.mapping fields) start = none := by
  induction written with
  | nil => contradiction
  | @cons head field given fields written _ ih =>
    intro start
    obtain ⟨headListed, listed⟩ := List.forall_mem_cons.mp listed
    rw [readFields_field headListed written]
    rcases List.mem_cons.mp member with rfl | later
    · rw [Item.set, item.kind.read_illegible written.2 illegible]
      rfl
    · rw [Option.bind_eq_none_iff]
      exact fun next _ => ih listed later next

theorem encodable_fields (written : List.Forall₂ (Item.Field a) given fields)
    (legible : ∀ item ∈ given, item.kind.Legible (item.get a)) :
    isEncodable (.mapping fields) = true := by
  rw [isEncodable]
  induction written with
  | nil => rfl
  | @cons item _ _ _ written _ ih =>
    obtain ⟨headLegible, legible⟩ := List.forall_mem_cons.mp legible
    rw [haveEncodable, item.kind.encodable written.2 headLegible, ih legible]
    rfl

theorem independent_of_ne {i j : Item α} (first : i ∈ layout.items) (second : j ∈ layout.items)
    (ne : i ≠ j) :
    i.Independent j :=
  layout.independent.forall first second ne

theorem read_legible {d : Document} (written : layout.Writes a d) (legible : layout.Legible a) :
    readFields layout.field? d layout.unset = some a := by
  obtain ⟨given, fields, rfl, subset, matched, rest⟩ := written
  have listed : ∀ item ∈ given, item ∈ layout.items := fun item member => subset.subset member
  have apart : given.Pairwise Item.Independent := by
    obtain ⟨inOrder, perm, sublist⟩ := subset
    exact (layout.independent.sublist sublist).perm perm Item.Independent.symm
  obtain ⟨result, read, same, kept⟩ := readFields_legible matched listed apart
    (fun item member => legible item (listed item member)) layout.unset
    (fun item member => layout.start item (listed item member))
  have equal : result = a := layout.ext fun item member => by
    by_cases isGiven : item ∈ given
    · exact same item isGiven
    · have away : ∀ other ∈ given, item.Independent other := fun other otherGiven =>
        independent_of_ne member (listed other otherGiven) (by rintro rfl; exact isGiven otherGiven)
      rw [kept item away, layout.start item member, (rest item member).resolve_left isGiven]
  rw [read, equal]

theorem read_illegible {d : Document} (written : layout.Writes a d) (illegible : ¬layout.Legible a)
    (start : α) :
    readFields layout.field? d start = none := by
  obtain ⟨given, fields, rfl, subset, matched, rest⟩ := written
  have listed : ∀ item ∈ given, item ∈ layout.items := fun item member => subset.subset member
  obtain ⟨item, member, illegible⟩ : ∃ item ∈ layout.items, ¬item.kind.Legible (item.get a) := by
    simpa [Legible] using illegible
  rcases rest item member with isGiven | unset
  · exact readFields_illegible matched listed isGiven illegible start
  · rw [unset] at illegible
    exact absurd item.kind.legible_unset illegible

/-- Records of one layout are a kind of values themselves, written as mappings. -/
def toKind (layout : Layout α) : Kind α where
  unset := layout.unset
  read := readFields layout.field?
  Writes := layout.Writes
  Writable := layout.Writable
  Legible := layout.Legible
  writes writable := .inr (exists_writes writable)
  legible_unset item member := by
    rw [layout.start item member]
    exact item.kind.legible_unset
  not_null := by
    rintro x d ⟨given, fields, rfl, -⟩
    rfl
  encodable := by
    rintro x d ⟨given, fields, rfl, subset, matched, -⟩ legible
    exact encodable_fields matched fun item member => legible item (subset.subset member)
  read_legible := read_legible
  read_illegible := read_illegible

@[simp] theorem toKind_legible : layout.toKind.Legible a ↔ layout.Legible a := Iff.rfl

end Layout
end Settings
end CodeAudit
