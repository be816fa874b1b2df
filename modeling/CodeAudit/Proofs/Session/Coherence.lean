import CodeAudit.Proofs.CallGraph.Mentions
import CodeAudit.Proofs.CallTree.Enumeration
import CodeAudit.Proofs.Session.Composition

/-! Graph and index of a session know the same functions, so that every node of a tree has a record.
Of records that share a short name it is the last one. -/
namespace CodeAudit

namespace FunctionIndex
variable {records : List FunctionRecord} {record : FunctionRecord} {name : Text}
  {found : PlacedRecord}

/-- A record that comes later is found in the place of an earlier one. -/
theorem find?_concat : find? { records := records ++ [record] } name =
    if record.shortName = name then some { place := records.length, record }
    else find? { records } name := by
  simp only [find?, placed, List.zipIdx_append, List.zipIdx_singleton, List.map_append,
    List.map_singleton,
    List.reverse_append, List.reverse_singleton, List.singleton_append, List.find?_cons,
      Nat.zero_add]
  split <;> simp_all

theorem find?_isSome : (find? { records } name).isSome ↔
    ∃ record ∈ records, record.shortName = name := by
  induction records using List.reverseRecOn with
  | nil => simp [find?, placed]
  | append_singleton records last ih =>
    rw [find?_concat]
    by_cases same : last.shortName = name
    · rw [if_pos same]
      exact iff_of_true rfl ⟨last, by simp, same⟩
    · rw [if_neg same, ih]
      simp [or_and_right, exists_or, same]

/-- The record stands in the list under the name, and none that comes after it does. -/
def LastNamed (records : List FunctionRecord) (name : Text) (found : PlacedRecord) : Prop :=
  records[found.place]? = some found.record ∧ found.record.shortName = name ∧
    ∀ later record, found.place < later → records[later]? = some record → record.shortName ≠ name

theorem find?_last (present : find? { records } name = some found) :
    LastNamed records name found := by
  induction records using List.reverseRecOn with
  | nil => contradiction
  | append_singleton records last ih =>
    rw [find?_concat] at present
    split at present
    next same =>
      obtain rfl := Option.some.inj present
      refine ⟨List.getElem?_concat_length, same, fun later record beyond listed => ?_⟩
      have inside := (List.getElem?_eq_some_iff.mp listed).1
      simp only [List.length_append, List.length_singleton] at inside beyond
      omega
    next other =>
      obtain ⟨here, named, alone⟩ := ih present
      have before := (List.getElem?_eq_some_iff.mp here).1
      refine ⟨(List.getElem?_append_left before).trans here, named,
        fun later record beyond listed => ?_⟩
      by_cases inside : later < records.length
      · exact alone later record beyond ((List.getElem?_append_left inside).symm.trans listed)
      · rw [List.getElem?_append_right (Nat.le_of_not_lt inside), List.getElem?_singleton] at listed
        split at listed
        · exact Option.some.inj listed ▸ other
        · contradiction

end FunctionIndex

namespace CallGraph.Analyzer
variable {records : List FunctionRecord} {name : Text}

theorem analyze_built (analyzer : Analyzer) : (analyzer.analyze records).1.Built := by
  cases analyzer with
  | lexical => exact ofMentions_built records
  | disabled => exact ofNames_built records

theorem mem_functions_analyze (analyzer : Analyzer) :
    name ∈ (analyzer.analyze records).1.functions ↔
      ∃ record ∈ records, record.shortName = name := by
  cases analyzer with
  | lexical => exact mem_functions_ofMentions
  | disabled => exact mem_functions_ofNames

end CallGraph.Analyzer

namespace CallTree

/-- The names of the nodes are functions of a graph. -/
def Inside (g : CallGraph) (t : CallTree) : Prop :=
  ∀ i node, t.node? i = some node → node.name ∈ g.functions

end CallTree

namespace TreeBuilder
variable {b : TreeBuilder} {t tree : CallTree} {names allowed siblings excluded : List Text}
  {parent first : Nat} {root : Text} {direction : Direction}

theorem addChildren_inside (inside : t.Inside b.graph) (known : names ⊆ b.graph.functions) :
    (b.addChildren t parent names).Inside b.graph := by
  intro i node found
  rcases addChildren_cases found with ⟨old, here, rfl⟩ | ⟨k, name, rfl, listed, rfl⟩
  · have named := inside i old here
    split <;> exact named
  · exact known (List.mem_of_mem_take (List.mem_of_getElem? listed))

/-- Whatever is unfolded is related to something, and so a function of the graph. -/
theorem unfoldAll_inside (built : b.graph.Built) (inside : t.Inside b.graph) :
    (b.unfoldAll allowed siblings first t).Inside b.graph := by
  refine unfoldAll_keeps (motive := fun later => later.Inside b.graph) ?_ inside
  intro later parent name below inside
  apply addChildren_inside inside
  intro other member
  exact (built.related_within later.direction name).2 (List.mem_of_mem_filter member)

theorem build_inside (built : b.graph.Built) (known : root ∈ b.graph.functions)
    (made : (b.build root direction excluded).1 = some tree) : tree.Inside b.graph := by
  obtain ⟨_, rfl⟩ := build_some made
  refine unfoldAll_inside built (fun i node found => ?_)
  obtain ⟨_, rfl⟩ := CallTree.node?_single found
  exact known

end TreeBuilder

namespace Settings
variable {s : Settings} {records : List FunctionRecord} {session : AnalysisSession}

/-- The graph of a session has exactly the functions for which its index finds a record. Every node
of a tree from one of them has the last record of its name. -/
theorem session_coherent (made : (s.analysisSession records).1 = .ok session) :
    (∀ name, session.graph.contains name = (session.index.find? name).isSome) ∧
    ∀ root, session.graph.contains root → ∀ direction excluded tree,
      (session.trees.build root direction excluded).1 = some tree → ∀ node ∈ tree.nodes,
        ∃ found, node.record = some found ∧ FunctionIndex.LastNamed records node.name found := by
  obtain ⟨analyzer, rfl⟩ := analysisSession_ok made
  have built : (s.sessionBy analyzer records).graph.Built := analyzer.analyze_built
  have agree (name : Text) : name ∈ (s.sessionBy analyzer records).graph.functions ↔
      (FunctionIndex.find? { records } name).isSome :=
    (analyzer.mem_functions_analyze).trans FunctionIndex.find?_isSome.symm
  refine ⟨fun name => ?_, fun root known direction excluded tree made node member => ?_⟩
  · rw [Bool.eq_iff_iff]
    exact CallGraph.entry?_isSome.trans (agree name)
  · obtain ⟨i, inside, rfl⟩ := Array.mem_iff_getElem.mp member
    have here : tree.node? i = some tree.nodes[i] := Array.getElem?_eq_getElem inside
    have rooted : root ∈ (s.sessionBy analyzer records).graph.functions :=
      CallGraph.entry?_isSome.mp known
    have named := TreeBuilder.build_inside built rooted made i _ here
    obtain ⟨found, present⟩ := Option.isSome_iff_exists.mp ((agree _).mp named)
    refine ⟨found, ?_, FunctionIndex.find?_last present⟩
    exact ((TreeBuilder.build_sound built made).records i _ here).trans present

/-- Two functions are called `pay`, of which the first calls `send`, and one has no name at all. -/
def shop : List FunctionRecord :=
  [("Till.pay", "send"), ("Bank.pay", ""), ("send", "pay"), ("Till.", "")].map
    fun (name, content) => { name := utf8 name, content := utf8 content }

theorem shop_trees : ((withDefaults {}).sessionBy .lexical shop).trees =
    { graph :=
        (CallGraph.ofNames shop).addCalls [(utf8 "pay", utf8 "send"), (utf8 "send", utf8 "pay")]
      index := { records := shop } } := rfl

theorem session_coherent_shared : ∃ session tree, ((withDefaults {}).analysisSession shop).1 =
    .ok session ∧
    session.graph.contains (utf8 "") = (session.index.find? (utf8 "")).isSome ∧
    (session.trees.build (utf8 "pay") .downstream []).1 = some tree ∧
    tree.nodes.map (fun node => node.record.map PlacedRecord.place) = #[some 1, some 2] ∧
    ∀ node ∈ tree.nodes, ∃ found, node.record = some found ∧
      FunctionIndex.LastNamed shop node.name found := by
  have made : ((withDefaults {}).analysisSession shop).1 =
      .ok ((withDefaults {}).sessionBy .lexical shop) := rfl
  obtain ⟨agree, resolved⟩ := session_coherent made
  have known : ((withDefaults {}).sessionBy .lexical shop).graph.contains (utf8 "pay") := by decide
  rcases grown :
    (((withDefaults {}).sessionBy .lexical shop).trees.build (utf8 "pay")
      .downstream []).1 with _ | tree
  · exact absurd (TreeBuilder.build_none.mp grown) List.not_mem_nil
  · refine ⟨_, tree, made, agree _, grown, ?_,
      resolved (utf8 "pay") known .downstream [] tree grown⟩
    have places :
      (((withDefaults {}).sessionBy .lexical shop).trees.build (utf8 "pay") .downstream []).1.map
        (fun tree => tree.nodes.map (fun node => node.record.map PlacedRecord.place)) =
          some #[some 1, some 2] := by
      rw [shop_trees]
      cbv
    rw [grown] at places
    exact Option.some.inj places

end Settings
end CodeAudit
