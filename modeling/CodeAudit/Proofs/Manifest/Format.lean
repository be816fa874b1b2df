import CodeAudit.Manifest
import Mathlib.Data.List.Forall2

/-! The format of manifests. A document that has it is read into the records that its entries
describe, one for each and in their order. Any other is refused as a whole, with a fault that names
the first entry that is not well-formed. -/
namespace CodeAudit

/-- The fault tells the number of an entry, of which no digit is missing. -/
def Fault.NamesEntry (fault : Fault) (place : Nat) : Prop :=
  ∃ before after, fault.message = before ++ utf8 "entry " ++ Text.ofNat place ++ after ∧
    ∀ b ∈ after.head?, isDigitByte b = false

namespace Manifest

/-- Where the functions are listed: under the key `functions` of a mapping that has it, else at the
root. -/
inductive ListNode (root : Document) : Document → Prop where
  | keyed {node : Document} (present : root.field? "functions" = some node) : ListNode root node
  | bare (absent : root.field? "functions" = none) : ListNode root root

/-- The entries of a manifest; null is a list without any. -/
inductive Lists (root : Document) : List Document → Prop where
  | null (node : ListNode root .null) : Lists root []
  | sequence {entries : List Document} (node : ListNode root (.sequence entries)) :
      Lists root entries

structure WellFormed (entry : Document) : Prop where
  mapping : ∃ fields, entry = .mapping fields
  required : ∀ key ∈ ["name", "content"], ∃ text, entry.field? key = some (.scalar text)
  optional : ∀ key ∈ ["relative_file_path", "absolute_file_path", "contract_code", "visibility",
    "state_mutability"],
    ∀ value, entry.field? key = some value → value = .null ∨ ∃ text, value = .scalar text
  lines : ∀ key ∈ ["start_line", "end_line"],
    ∀ value, entry.field? key = some value → ∃ line, value.uint32? = some line
  modifiers : ∀ value, entry.field? "modifiers" = some value →
    ∃ texts : List Text, value = .sequence (texts.map .scalar)

def TextAt (entry : Document) (key : String) : Option Text → Prop
  | some text => entry.field? key = some (.scalar text)
  | none => entry.field? key = none ∨ entry.field? key = some .null

/-- The number at a key, and zero where the key is missing. -/
def LineAt (entry : Document) (key : String) (line : UInt32) : Prop :=
  match entry.field? key with
  | some value => value.uint32? = some line
  | none => line = 0

def ModifiersAt (entry : Document) (modifiers : List Text) : Prop :=
  match entry.field? "modifiers" with
  | some value => value = .sequence (modifiers.map .scalar)
  | none => modifiers = []

structure Describes (entry : Document) (record : FunctionRecord) : Prop where
  mapping : ∃ fields, entry = .mapping fields
  name : TextAt entry "name" (some record.name)
  content : TextAt entry "content" (some record.content)
  relativePath : ∃ path, TextAt entry "relative_file_path" path ∧ record.relativePath = path.getD []
  absolutePath : ∃ path, TextAt entry "absolute_file_path" path ∧ record.absolutePath = path.getD []
  startLine : LineAt entry "start_line" record.startLine
  endLine : LineAt entry "end_line" record.endLine
  contractCode : TextAt entry "contract_code" record.contractCode
  visibility : TextAt entry "visibility" record.visibility
  stateMutability : TextAt entry "state_mutability" record.stateMutability
  modifiers : ModifiersAt entry record.modifiers

def FirstMalformed (entries : List Document) (place : Nat) : Prop :=
  ∃ bad, entries[place]? = some bad ∧ ¬WellFormed bad ∧
    ∀ entry ∈ entries.take place, WellFormed entry

/-- A reading of an entry gives just what is there, and its faults name the entry. -/
structure Reads {α : Type} (place : Nat) (There : α → Prop)
    (reading : Except ManifestFault α) : Prop where
  found : ∀ value, reading = .ok value ↔ There value
  fault : ∀ cause, reading = .error cause → (Fault.manifest cause).NamesEntry place

variable {α β : Type} {entry : Document} {key : String} {place : Nat}

theorem bind_eq_ok {reading : Except ManifestFault α} {next : α → Except ManifestFault β}
    {result : β} :
    (reading >>= next) = .ok result ↔ ∃ value, reading = .ok value ∧ next value = .ok result := by
  cases reading <;> simp [Bind.bind, Except.bind]

namespace Reads
variable {There Other : α → Prop} {Next : α → β → Prop} {reading : Except ManifestFault α}

theorem congr (reads : Reads place There reading) (same : ∀ value, There value ↔ Other value) :
    Reads place Other reading :=
  ⟨fun value => (reads.found value).trans (same value), reads.fault⟩

theorem given {value : α} (there : ∀ other, There other ↔ other = value) :
    Reads place There (.ok value) where
  found other := by
    rw [there, Except.ok.injEq, eq_comm]
  fault := nofun

theorem value (place : Nat) (value : α) : Reads place (· = value) (.ok value) :=
  .given fun _ => Iff.rfl

theorem refused {cause : ManifestFault} (absent : ∀ value, ¬There value)
    (names : (Fault.manifest cause).NamesEntry place) : Reads place There (.error cause) where
  found value := iff_of_false nofun (absent value)
  fault := by
    rintro _ ⟨⟩
    exact names

theorem bind {next : α → Except ManifestFault β} (reads : Reads place There reading)
    (further : ∀ value, Reads place (Next value) (next value)) :
    Reads place (fun result => ∃ value, There value ∧ Next value result) (reading >>= next) where
  found result := by
    rw [bind_eq_ok]
    exact exists_congr fun value => and_congr (reads.found value) ((further value).found result)
  fault := by
    intro cause failed
    cases reading with
    | error first =>
      obtain rfl := Except.error.inj failed
      exact reads.fault first rfl
    | ok value => exact (further value).fault cause failed

end Reads

/-! ### The parts of an entry -/

theorem entryNotAMap_names : (Fault.manifest (.entryNotAMap place)).NamesEntry place :=
  ⟨utf8 "Invalid function manifest: ", utf8 " is not a map", rfl, by rintro b ⟨⟩; rfl⟩

theorem entryLacks_names : (Fault.manifest (.entryLacks place key)).NamesEntry place := by
  refine ⟨utf8 "Invalid function manifest: ", utf8 " is missing '" ++ utf8 key ++ utf8 "'", ?_,
    by rintro b ⟨⟩; rfl⟩
  simp only [← List.append_assoc]
  rfl

theorem entryModifiers_names : (Fault.manifest (.entryModifiers place)).NamesEntry place :=
  ⟨utf8 "Invalid function manifest: 'modifiers' of ", utf8 " must be a list", rfl,
    by rintro b ⟨⟩; rfl⟩

theorem entryValue_names : (Fault.manifest (.entryValue place)).NamesEntry place :=
  ⟨utf8 "Invalid function manifest: ", utf8 ": <yaml>", rfl, by rintro b ⟨⟩; rfl⟩

theorem scalar?_eq_some {value : Document} {text : Text} : value.scalar? = some text ↔
    value = .scalar text := by
  cases value <;> simp [Document.scalar?]

theorem requiredText_reads (entry : Document) (key : String) (place : Nat) :
    Reads place (fun text => TextAt entry key (some text)) (requiredText entry key place) := by
  unfold requiredText
  split
  next text found =>
    obtain ⟨value, present, scalar⟩ := Option.bind_eq_some_iff.mp found
    obtain rfl := scalar?_eq_some.mp scalar
    exact .given fun other => by simp [TextAt, present, eq_comm]
  next missing =>
    refine .refused (fun text present => ?_) entryLacks_names
    rw [TextAt] at present
    rw [present] at missing
    contradiction

theorem optionalText_reads (entry : Document) (key : String) (place : Nat) :
    Reads place (TextAt entry key) (optionalText entry key place) := by
  unfold optionalText
  rcases present : entry.field? key with _ | _ | text | items | fields
  · exact .given fun other => by cases other <;> simp [TextAt, present]
  · exact .given fun other => by cases other <;> simp [TextAt, present]
  · exact .given fun other => by cases other <;> simp [TextAt, present, eq_comm]
  · exact .refused (fun other => by cases other <;> simp [TextAt, present]) entryValue_names
  · exact .refused (fun other => by cases other <;> simp [TextAt, present]) entryValue_names

theorem lineNumber_reads (entry : Document) (key : String) (place : Nat) :
    Reads place (LineAt entry key) (lineNumber entry key place) := by
  unfold lineNumber LineAt
  cases entry.field? key with
  | none => exact .given fun _ => Iff.rfl
  | some value =>
    dsimp only
    cases value.uint32? with
    | none => exact .refused nofun entryValue_names
    | some line => exact .given fun other => by rw [Option.some.injEq, eq_comm]

theorem mapM_scalar?_eq_some {items : List Document} {texts : List Text} :
    items.mapM Document.scalar? = some texts ↔ items = texts.map .scalar := by
  induction items generalizing texts with
  | nil => cases texts <;> simp
  | cons item rest ih =>
    cases texts <;> simp [List.mapM_cons, Option.bind_eq_some_iff, scalar?_eq_some, ih]

theorem modifierTexts_reads (entry : Document) (place : Nat) :
    Reads place (ModifiersAt entry) (modifierTexts entry place) := by
  unfold modifierTexts ModifiersAt
  rcases entry.field? "modifiers" with _ | _ | text | items | fields
  · exact .given fun _ => Iff.rfl
  · exact .refused nofun entryModifiers_names
  · exact .refused nofun entryModifiers_names
  · have scalars (texts : List Text) : Document.sequence items = .sequence (texts.map .scalar) ↔
        items.mapM Document.scalar? = some texts := by
      rw [Document.sequence.injEq, mapM_scalar?_eq_some]
    simp only [scalars]
    rcases read : items.mapM Document.scalar? with _ | texts
    · exact .refused nofun entryValue_names
    · exact .given fun other => by rw [Option.some.injEq, eq_comm]
  · exact .refused nofun entryModifiers_names

/-! ### Entries -/

theorem record_reads (entry : Document) (place : Nat) :
    Reads place (Describes entry) (record entry place) := by
  rcases entry with _ | text | items | fields
  · exact .refused (fun _ describes => nomatch describes.mapping) entryNotAMap_names
  · exact .refused (fun _ describes => nomatch describes.mapping) entryNotAMap_names
  · exact .refused (fun _ describes => nomatch describes.mapping) entryNotAMap_names
  · let entry := Document.mapping fields
    have parts :=
      (requiredText_reads entry "name" place).bind fun name =>
      (requiredText_reads entry "content" place).bind fun content =>
      (optionalText_reads entry "relative_file_path" place).bind fun relativePath =>
      (optionalText_reads entry "absolute_file_path" place).bind fun absolutePath =>
      (lineNumber_reads entry "start_line" place).bind fun startLine =>
      (lineNumber_reads entry "end_line" place).bind fun endLine =>
      (optionalText_reads entry "contract_code" place).bind fun contractCode =>
      (optionalText_reads entry "visibility" place).bind fun visibility =>
      (optionalText_reads entry "state_mutability" place).bind fun stateMutability =>
      (modifierTexts_reads entry place).bind fun modifiers =>
      Reads.value place {
        name, content, startLine, endLine, contractCode, visibility, stateMutability, modifiers
        relativePath := relativePath.getD []
        absolutePath := absolutePath.getD [] : FunctionRecord }
    refine parts.congr fun record => ?_
    constructor
    · rintro ⟨_, name, _, content, path, relativePath, base, absolutePath, _, startLine, _, endLine,
        _, contractCode, _,
        visibility, _, stateMutability, _, modifiers, rfl⟩
      exact ⟨⟨fields, rfl⟩, name, content, ⟨path, relativePath, rfl⟩, ⟨base, absolutePath, rfl⟩,
        startLine, endLine,
        contractCode, visibility, stateMutability, modifiers⟩
    · rintro ⟨-, name, content, ⟨path, relativePath, relative⟩, ⟨base, absolutePath, absolute⟩,
        startLine, endLine,
        contractCode, visibility, stateMutability, modifiers⟩
      refine ⟨_, name, _, content, path, relativePath, base, absolutePath, _, startLine, _, endLine,
        _, contractCode, _,
        visibility, _, stateMutability, _, modifiers, ?_⟩
      rw [← relative, ← absolute]

theorem exists_textAt : (∃ text, TextAt entry key text) ↔
    ∀ value, entry.field? key = some value → value = .null ∨ ∃ text, value = .scalar text := by
  constructor
  · rintro ⟨_ | text, there⟩ value present
    · rcases there with absent | null
      · exact nomatch present.symm.trans absent
      · exact .inl (Option.some.inj (present.symm.trans null))
    · exact .inr ⟨text, Option.some.inj (present.symm.trans there)⟩
  · intro legal
    cases present : entry.field? key with
    | none => exact ⟨none, .inl present⟩
    | some value =>
      rcases legal value present with rfl | ⟨text, rfl⟩
      · exact ⟨none, .inr present⟩
      · exact ⟨some text, present⟩

theorem exists_lineAt : (∃ line, LineAt entry key line) ↔
    ∀ value, entry.field? key = some value → ∃ line, value.uint32? = some line := by
  unfold LineAt
  cases entry.field? key <;> simp

theorem exists_modifiersAt : (∃ modifiers, ModifiersAt entry modifiers) ↔
    ∀ value, entry.field? "modifiers" = some value →
      ∃ texts : List Text, value = .sequence (texts.map .scalar) := by
  unfold ModifiersAt
  cases entry.field? "modifiers" <;> simp

/-- The well-formed entries are those that describe a record. -/
theorem wellFormed_iff : WellFormed entry ↔ ∃ record, Describes entry record := by
  constructor
  · intro legal
    have texts (key : String) (listed : key ∈ _) := exists_textAt.mpr (legal.optional key listed)
    have lines (key : String) (listed : key ∈ _) := exists_lineAt.mpr (legal.lines key listed)
    obtain ⟨name, hasName⟩ := legal.required "name" (by simp)
    obtain ⟨content, hasContent⟩ := legal.required "content" (by simp)
    obtain ⟨relativePath, relative⟩ := texts "relative_file_path" (by simp)
    obtain ⟨absolutePath, absolute⟩ := texts "absolute_file_path" (by simp)
    obtain ⟨contractCode, hasCode⟩ := texts "contract_code" (by simp)
    obtain ⟨visibility, visible⟩ := texts "visibility" (by simp)
    obtain ⟨stateMutability, mutability⟩ := texts "state_mutability" (by simp)
    obtain ⟨startLine, starts⟩ := lines "start_line" (by simp)
    obtain ⟨endLine, ends⟩ := lines "end_line" (by simp)
    obtain ⟨modifiers, modified⟩ := exists_modifiersAt.mpr legal.modifiers
    exact ⟨{
        name, content, startLine, endLine, contractCode, visibility, stateMutability, modifiers
        relativePath := relativePath.getD []
        absolutePath := absolutePath.getD [] },
      legal.mapping, hasName, hasContent, ⟨_, relative, rfl⟩, ⟨_, absolute, rfl⟩, starts, ends,
        hasCode, visible, mutability,
      modified⟩
  · rintro ⟨record, describes⟩
    obtain ⟨relativePath, relative, -⟩ := describes.relativePath
    obtain ⟨absolutePath, absolute, -⟩ := describes.absolutePath
    refine ⟨describes.mapping, ?_, ?_, ?_, exists_modifiersAt.mp ⟨_, describes.modifiers⟩⟩
    · simp only [List.forall_mem_cons]
      exact ⟨⟨_, describes.name⟩, ⟨_, describes.content⟩, nofun⟩
    · simp only [List.forall_mem_cons, ← exists_textAt]
      exact ⟨⟨_, relative⟩, ⟨_, absolute⟩, ⟨_, describes.contractCode⟩, ⟨_, describes.visibility⟩,
        ⟨_, describes.stateMutability⟩, nofun⟩
    · simp only [List.forall_mem_cons, ← exists_lineAt]
      exact ⟨⟨_, describes.startLine⟩, ⟨_, describes.endLine⟩, nofun⟩

/-! ### Manifests -/

theorem records_read (entries : List Document) (start : Nat) (records : List FunctionRecord) :
    (entries.zipIdx start).mapM (fun (entry, place) => record entry place) = .ok records ↔
      List.Forall₂ Describes entries records := by
  induction entries generalizing start records with
  | nil =>
    change Except.ok [] = Except.ok records ↔ _
    rw [Except.ok.injEq, List.forall₂_nil_left_iff, eq_comm]
  | cons entry rest ih =>
    rw [List.zipIdx_cons, List.mapM_cons, bind_eq_ok, List.forall₂_cons_left_iff]
    refine exists_congr fun first => ?_
    simp only [bind_eq_ok, ih, (record_reads entry start).found, pure, Except.pure, Except.ok.injEq]
    constructor
    · rintro ⟨describes, others, each, rfl⟩
      exact ⟨others, describes, each, rfl⟩
    · rintro ⟨others, describes, each, rfl⟩
      exact ⟨describes, others, each, rfl⟩

theorem exists_records {entries : List Document} :
    (∃ records, List.Forall₂ Describes entries records) ↔ ∀ entry ∈ entries, WellFormed entry := by
  induction entries with
  | nil => exact iff_of_true ⟨[], .nil⟩ nofun
  | cons entry rest ih =>
    rw [List.forall_mem_cons, ← ih, wellFormed_iff]
    constructor
    · rintro ⟨_, _ | ⟨describes, each⟩⟩
      exact ⟨⟨_, describes⟩, ⟨_, each⟩⟩
    · rintro ⟨⟨record, describes⟩, ⟨records, each⟩⟩
      exact ⟨record :: records, .cons describes each⟩

theorem FirstMalformed.cons {rest : List Document} (malformed : FirstMalformed rest place)
    (legal : WellFormed entry) :
    FirstMalformed (entry :: rest) (place + 1) := by
  obtain ⟨bad, there, illegal, before⟩ := malformed
  exact ⟨bad, there, illegal, List.forall_mem_cons.mpr ⟨legal, before⟩⟩

theorem records_refused (entries : List Document) (start : Nat) (cause : ManifestFault)
    (refused : (entries.zipIdx start).mapM (fun (entry, place) => record entry place) =
      .error cause) :
    ∃ place, FirstMalformed entries place ∧ (Fault.manifest cause).NamesEntry (start + place) := by
  induction entries generalizing start with
  | nil => contradiction
  | cons entry rest ih =>
    have reads := record_reads entry start
    rw [List.zipIdx_cons, List.mapM_cons] at refused
    dsimp only at refused
    cases read : record entry start with
    | error fault =>
      rw [read] at refused reads
      obtain rfl := Except.error.inj refused
      refine ⟨0, ⟨entry, rfl, fun legal => ?_, nofun⟩, reads.fault fault rfl⟩
      obtain ⟨record, describes⟩ := wellFormed_iff.mp legal
      cases (reads.found record).mpr describes
    | ok record =>
      rw [read] at refused
      cases further : (rest.zipIdx (start + 1)).mapM
        (fun (entry, place) => Manifest.record entry place) with
      | ok records =>
        rw [further] at refused
        contradiction
      | error fault =>
        rw [further] at refused
        obtain rfl := Except.error.inj refused
        obtain ⟨place, malformed, names⟩ := ih (start + 1) further
        refine ⟨place + 1, malformed.cons
          (wellFormed_iff.mpr ⟨record, (reads.found record).mp read⟩), ?_⟩
        rwa [Nat.add_assoc, Nat.add_comm 1 place] at names

variable {root node : Document} {records : List FunctionRecord} {cause : ManifestFault}

theorem listNode_iff : ListNode root node ↔ node = Manifest.entries root := by
  unfold Manifest.entries
  constructor
  · rintro (present | absent)
    · rw [present, Option.getD_some]
    · rw [absent, Option.getD_none]
  · rintro rfl
    cases present : root.field? "functions" with
    | none => exact .bare present
    | some node => exact .keyed present

theorem ofDocument_read : ofDocument root = .ok records ↔
    ∃ entries, Lists root entries ∧ List.Forall₂ Describes entries records := by
  unfold ofDocument
  constructor
  · intro given
    split at given
    next null =>
      obtain rfl := Except.ok.inj given
      exact ⟨[], .null (listNode_iff.mpr null.symm), .nil⟩
    next items sequence =>
      exact ⟨items, .sequence (listNode_iff.mpr sequence.symm),
        (records_read items 0 records).mp given⟩
    next => contradiction
  · rintro ⟨items, node | node, each⟩
    · obtain rfl := List.forall₂_nil_left_iff.mp each
      rw [← listNode_iff.mp node]
    · rw [← listNode_iff.mp node]
      exact (records_read items 0 records).mpr each

theorem ofDocument_refused (refused : ofDocument root = .error cause) {items : List Document}
    (node : ListNode root (.sequence items)) :
    ∃ place, FirstMalformed items place ∧ (Fault.manifest cause).NamesEntry place := by
  rw [ofDocument, ← listNode_iff.mp node] at refused
  obtain ⟨place, malformed, names⟩ := records_refused items 0 cause refused
  exact ⟨place, malformed, Nat.zero_add place ▸ names⟩

theorem ofText_parsed : ofText (.parsed root) = .ok records ↔ ofDocument root = .ok records := by
  rw [ofText]
  cases ofDocument root <;> simp [Except.mapError]

/-- A manifest is read into the records that its entries describe. It is read exactly if it is null
or a list of well-formed entries; else there are no records but a failure, which of a list names the
first entry that is not well-formed. It makes no difference whether the manifest comes from a
file. -/
theorem manifests_read (root : Document) :
    (∀ records, ofText (.parsed root) = .ok records ↔
      ∃ entries, Lists root entries ∧ List.Forall₂ Describes entries records) ∧
    ((∃ records, ofText (.parsed root) = .ok records) ↔
      ∃ entries, Lists root entries ∧ ∀ entry ∈ entries, WellFormed entry) ∧
    (∀ fault, ofText (.parsed root) = .error fault → fault.kind = .failure ∧
      ∀ entries, ListNode root (.sequence entries) →
        ∃ place, FirstMalformed entries place ∧ fault.NamesEntry place) ∧
    ∀ path, (load path (.parsed root)).1 = ofText (.parsed root) := by
  have read (records : List FunctionRecord) : ofText (.parsed root) = .ok records ↔
      ∃ entries, Lists root entries ∧ List.Forall₂ Describes entries records :=
        ofText_parsed.trans ofDocument_read
  refine ⟨read, ?_, fun fault refused => ?_, fun path => ?_⟩
  · simp only [read, ← exists_records]
    constructor
    · rintro ⟨records, entries, lists, each⟩
      exact ⟨entries, lists, records, each⟩
    · rintro ⟨entries, lists, records, each⟩
      exact ⟨records, entries, lists, each⟩
  · rw [ofText] at refused
    cases given : ofDocument root with
    | ok records =>
      rw [given] at refused
      contradiction
    | error cause =>
      rw [given] at refused
      obtain rfl := Except.error.inj refused
      exact ⟨rfl, fun entries node => ofDocument_refused given node⟩
  · rw [load, ofText]
    cases ofDocument root <;> rfl

/-- The second entry is refused for its content, though the third is no better. -/
example : ofText (.parsed (.mapping [(utf8 "functions", .sequence [
      .mapping [(utf8 "name", .scalar (utf8 "A.a")), (utf8 "content", .scalar [])],
      .mapping [(utf8 "name", .scalar (utf8 "A.b")), (utf8 "content", .null)], .null])])) =
    .error (.manifest (.entryLacks 1 "content")) := by rfl

end Manifest
end CodeAudit
