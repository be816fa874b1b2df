import CodeAudit.CallGraph.Mention
import CodeAudit.Proofs.CallGraph.Calls
import Mathlib.Data.Finset.Prod

/-! The graph that is read off the wording of records. Its functions and calls depend on which
records there are and not on their order, whatever names they share. -/
namespace CodeAudit
namespace CallGraph

def Mentions (records : List FunctionRecord) (caller callee : Text) : Prop :=
  caller ≠ callee ∧ (∃ record ∈ records, record.shortName = callee) ∧
    ∃ record ∈ records, record.shortName = caller ∧ containsWord record.content callee = true

instance (records : List FunctionRecord) (caller callee : Text) :
    Decidable (Mentions records caller callee) :=
  inferInstanceAs (Decidable (_ ∧ _ ∧ _))

/-- The pairs of functions of which one mentions the other. -/
def mentioned (records : List FunctionRecord) : Finset (Text × Text) :=
  let names := (records.map FunctionRecord.shortName).toFinset
  (names ×ˢ names).filter (fun (caller, callee) => Mentions records caller callee)

variable {records others : List FunctionRecord} {name caller callee : Text}

theorem mem_mentioned : (caller, callee) ∈ mentioned records ↔ Mentions records caller callee := by
  simp only [mentioned, Finset.mem_filter, Finset.mem_product, List.mem_toFinset, List.mem_map]
  refine and_iff_right_of_imp ?_
  rintro ⟨_, known, record, member, same, _⟩
  exact ⟨⟨record, member, same⟩, known⟩

theorem Mentions.congr (same : ∀ record, record ∈ records ↔ record ∈ others) :
    Mentions records caller callee ↔ Mentions others caller callee := by
  simp only [Mentions, same]

/-! ### Functions -/

theorem ofNames_concat (record : FunctionRecord) :
    ofNames (records ++ [record]) = (ofNames records).addFunction record.shortName := by
  simp [ofNames]

theorem ofNames_built (records : List FunctionRecord) : (ofNames records).Built := by
  induction records using List.reverseRecOn with
  | nil => exact .empty
  | append_singleton records record ih =>
    exact ofNames_concat record ▸ ih.addFunction record.shortName

theorem mem_functions_ofNames : name ∈ (ofNames records).functions ↔
    ∃ record ∈ records, record.shortName = name := by
  induction records using List.reverseRecOn with
  | nil => simp [ofNames, functions]
  | append_singleton records record ih =>
    rw [ofNames_concat, mem_functions_addFunction, ih]
    simp only [List.mem_append, List.mem_singleton, or_and_right, exists_or, exists_eq_left]
    rw [or_comm, eq_comm]

theorem related_ofNames (direction : Direction) (name : Text) :
    (ofNames records).related direction name = [] := by
  induction records using List.reverseRecOn with
  | nil => rfl
  | append_singleton records record ih =>
    rw [ofNames_concat, (ofNames_built records).sound.related_addFunction, ih]

/-! ### Calls -/

/-- The short names of caller and callee of each mention. -/
def spoken (records : List FunctionRecord) : List (Text × Text) :=
  (mentions records).filterMap fun (caller, callee) =>
    match records[caller]?, records[callee]? with
    | some a, some b => some (a.shortName, b.shortName)
    | _, _ => none

theorem ofMentions_eq : ofMentions records = (ofNames records).addCalls (spoken records) := by
  rw [addCalls, spoken, List.foldl_filterMap, ofMentions]
  refine List.foldl_ext _ _ _ (fun g positions _ => ?_)
  obtain ⟨i, j⟩ := positions
  dsimp only
  rcases records[i]? with _ | a <;> rcases records[j]? with _ | b <;> rfl

/-- A pair of positions is listed for each mention between records with different short names. -/
theorem mem_mentions {i j : Nat} : (i, j) ∈ mentions records ↔
    ∃ a b, records[i]? = some a ∧ records[j]? = some b ∧
    a.shortName ≠ b.shortName ∧ containsWord a.content b.shortName = true := by
  simp only [mentions, List.mem_flatMap, List.mem_filterMap, Prod.exists,
    List.mem_zipIdx_iff_getElem?]
  constructor
  · rintro ⟨b, at_, listed, a, here, found, picked⟩
    split at picked
    next meant =>
      obtain ⟨rfl, rfl⟩ := Prod.mk.inj (Option.some.inj picked)
      exact ⟨a, b, found, listed, meant⟩
    next => contradiction
  · rintro ⟨a, b, found, listed, meant⟩
    exact ⟨b, j, listed, a, i, found, if_pos meant⟩

theorem mem_spoken : (caller, callee) ∈ spoken records ↔ Mentions records caller callee := by
  simp only [spoken, List.mem_filterMap, Prod.exists, mem_mentions]
  constructor
  · rintro ⟨i, j, ⟨a, b, found, listed, different, mentioned⟩, picked⟩
    rw [found, listed] at picked
    obtain ⟨rfl, rfl⟩ := Prod.mk.inj (Option.some.inj picked)
    exact ⟨different, ⟨b, List.mem_of_getElem? listed, rfl⟩, a, List.mem_of_getElem? found, rfl,
      mentioned⟩
  · rintro ⟨different, ⟨b, inside, rfl⟩, a, member, rfl, mentioned⟩
    obtain ⟨i, found⟩ := List.getElem?_of_mem member
    obtain ⟨j, listed⟩ := List.getElem?_of_mem inside
    refine ⟨i, j, ⟨a, b, found, listed, different, mentioned⟩, ?_⟩
    rw [found, listed]

theorem ofMentions_built (records : List FunctionRecord) : (ofMentions records).Built :=
  ofMentions_eq ▸ (ofNames_built records).addCalls _

theorem mem_functions_ofMentions :
    name ∈ (ofMentions records).functions ↔ ∃ record ∈ records, record.shortName = name := by
  rw [ofMentions_eq, mem_functions_addCalls, mem_functions_ofNames]
  rintro ⟨caller, callee⟩ member
  obtain ⟨_, known, record, inside, same, _⟩ := mem_spoken.mp member
  exact ⟨mem_functions_ofNames.mpr ⟨record, inside, same⟩, mem_functions_ofNames.mpr known⟩

theorem mem_callees_ofMentions :
    callee ∈ (ofMentions records).related .downstream caller ↔ Mentions records caller callee := by
  rw [ofMentions_eq, (ofNames_built records).mem_callees_addCalls, related_ofNames, mem_spoken]
  simp only [List.not_mem_nil, false_or]
  exact and_iff_right_of_imp And.left

theorem edgeCount_ofMentions : (ofMentions records).edgeCount = (mentioned records).card := by
  have built := ofMentions_built records
  have same : (ofMentions records).edges.toFinset = mentioned records := by
    ext ⟨caller, callee⟩
    rw [List.mem_toFinset, built.sound.mem_edges, mem_callees_ofMentions, mem_mentioned]
  rw [built.edgeCount, ← same, List.toFinset_card_of_nodup built.sound.edges_nodup]

theorem ofMentions_congr (same : ∀ record, record ∈ records ↔ record ∈ others) :
    ofMentions records = ofMentions others := by
  refine (ofMentions_built records).ext (ofMentions_built others) (fun name => ?_)
    (fun caller callee => ?_)
  · simp only [mem_functions_ofMentions, same]
  · rw [mem_callees_ofMentions, mem_callees_ofMentions, Mentions.congr same]

/-- The graph of a list of records has their short names for functions and a call for each pair of
which one mentions the other, and the order of the records makes no difference to it. -/
theorem lexical_graph_exact (records : List FunctionRecord) :
    let g := (Analyzer.lexical.analyze records).1
    g.functions.Nodup ∧ (∀ name, name ∈ g.functions ↔ ∃ record ∈ records, record.shortName = name) ∧
    (∀ caller callee, callee ∈ g.related .downstream caller ↔ Mentions records caller callee) ∧
    (∀ caller callee, caller ∈ g.related .upstream callee ↔ Mentions records caller callee) ∧
    g.edgeCount = (mentioned records).card ∧
    ∀ others, others.Perm records → (Analyzer.lexical.analyze others).1 = g := by
  have built := ofMentions_built records
  refine ⟨built.functions_nodup, fun _ => mem_functions_ofMentions, fun _ _ =>
    mem_callees_ofMentions,
    fun caller callee => built.dual.trans mem_callees_ofMentions, edgeCount_ofMentions,
      fun others same => ?_⟩
  exact ofMentions_congr (fun _ => same.mem_iff)

/-- Two functions whose names differ in case only, called by a third that has two records. -/
def cased : List FunctionRecord :=
  [("A.Foo", "one"), ("A.bar", "foo()"), ("A.foo", "two"), ("B.bar", "bar()")].map
    fun (name, content) =>
    { name := utf8 name, content := utf8 content }

theorem lexical_graph_exact_cased : cased.reverse.Perm cased ∧
    (Analyzer.lexical.analyze cased.reverse).1 = (Analyzer.lexical.analyze cased).1 ∧
    (Analyzer.lexical.analyze cased).1.edgeCount = 2 ∧
    utf8 "Foo" ∈ (Analyzer.lexical.analyze cased).1.related .downstream (utf8 "bar") := by
  have mentions : Mentions cased (utf8 "bar") (utf8 "Foo") := by decide
  have count : (mentioned cased).card = 2 := by decide
  obtain ⟨_, _, calls, _, edges, order⟩ := lexical_graph_exact cased
  exact ⟨cased.reverse_perm, order _ cased.reverse_perm, edges.trans count,
    (calls _ _).mpr mentions⟩

end CallGraph
end CodeAudit
