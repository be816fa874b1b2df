import CodeAudit.CallGraph.Mention
import CodeAudit.Proofs.BusinessFlow.Composition
import CodeAudit.Proofs.CallGraph.Mentions
import CodeAudit.Proofs.CallTree.Duality
import CodeAudit.Proofs.CallTree.Truncation

/-! What a cap on the number of nodes takes from a flow. A tree is unfolded branch by branch before
it is read down to the depth asked for, so that a cap spares a flow just as long as the nodes within
the depth come early enough. -/
namespace CodeAudit
namespace CallTree

/-- The resolved nodes within a depth are among the first so many of the arena. -/
def Foremost (t : CallTree) (maxDepth k : Nat) : Prop :=
  ∀ i node, t.node? i = some node → node.depth ≤ maxDepth → node.record.isSome → i < k

def countWithin (t : CallTree) (maxDepth : Nat) : Nat :=
  t.nodes.toList.countP (fun node => node.depth ≤ maxDepth)

variable {index : FunctionIndex} {t : CallTree} {maxDepth k i : Nat} {node : Node}

/-- What a place of the arena adds to an excerpt. -/
def entryAt (t : CallTree) (maxDepth i : Nat) : Option (Nat × PlacedRecord) :=
  (t.node? i).bind fun node => if node.depth ≤ maxDepth then node.entry? else none

theorem Sound.resolvedFrom_entries (sound : t.Sound index) :
    t.resolvedFrom maxDepth 0 = t.preorder.filterMap (t.entryAt maxDepth) := by
  obtain ⟨root, top, _⟩ := sound.root
  rw [sound.resolvedFrom_eq top, List.filterMap_filter]
  unfold nodesFrom
  rw [List.filterMap_filterMap]
  apply List.filterMap_congr
  intro i _
  simp only [entryAt, decide_eq_true_eq]

theorem entryAt_cut (inside : i < k) : (t.cut k).entryAt maxDepth i = t.entryAt maxDepth i := by
  unfold entryAt
  rw [node?_cut, if_pos inside, Option.bind_map]
  rfl

theorem Sound.preorder_cut (sound : t.Sound index) (kept : (t.cut k).Sound index) (some : 1 ≤ k) :
    (t.cut k).preorder = t.preorder.filter (· < k) := by
  obtain ⟨root, top, _⟩ := sound.root
  apply sound.descend (motive := fun i _ => i < k →
    (t.cut k).preorderFrom i = (t.preorderFrom i).filter (· < k)) _ top some
  intro i node found ih inside
  have here : (t.cut k).node? i = .some (node.within k) := by
    rw [node?_cut, if_pos inside, found]; rfl
  rw [kept.preorderFrom_node here, sound.preorderFrom_node found,
    List.filter_cons_of_pos (by simpa using inside),
    List.filter_flatMap]
  congr 1
  calc (node.children.filter (· < k)).flatMap (t.cut k).preorderFrom
    _ = (node.children.filter (· < k)).flatMap (fun c => (t.preorderFrom c).filter (· < k)) := by
      apply List.flatMap_congr
      intro c listed
      obtain ⟨listed, below⟩ := List.mem_filter.mp listed
      obtain ⟨_, child, there, _⟩ := sound.listed_child found listed
      exact ih c listed child there (of_decide_eq_true below)
    _ = node.children.flatMap (fun c => (t.preorderFrom c).filter (· < k)) := by
      apply flatMap_filter
      intro c listed beyond
      obtain ⟨_, child, there, _⟩ := sound.listed_child found listed
      apply List.filter_eq_nil_iff.mpr
      intro j read
      have far : k ≤ c := Nat.le_of_not_lt (of_decide_eq_false beyond)
      rw [decide_eq_true_eq]
      obtain ⟨_, _, same | ⟨behind, _⟩⟩ := sound.behind there read <;> omega

theorem Sound.resolvedFrom_cut (sound : t.Sound index) (kept : (t.cut k).Sound index)
    (some : 1 ≤ k) :
    (t.cut k).resolvedFrom maxDepth 0 = (t.preorder.filter (· < k)).filterMap
      (t.entryAt maxDepth) := by
  rw [kept.resolvedFrom_entries, sound.preorder_cut kept some]
  apply List.filterMap_congr
  intro i listed
  exact entryAt_cut (of_decide_eq_true (List.mem_filter.mp listed).2)

theorem Sound.foremost_iff (sound : t.Sound index) :
    t.Foremost maxDepth k ↔ ∀ i ∈ t.preorder, (t.entryAt maxDepth i).isSome → i < k := by
  constructor
  · intro foremost i _ adds
    obtain ⟨entry, adds⟩ := Option.isSome_iff_exists.mp adds
    obtain ⟨node, found, adds⟩ := Option.bind_eq_some_iff.mp adds
    split at adds
    next within =>
      obtain ⟨record, resolved, _⟩ := Option.map_eq_some_iff.mp adds
      exact foremost i node found within (Option.isSome_iff_exists.mpr ⟨record, resolved⟩)
    next => contradiction
  · intro early i node found within resolved
    apply early i (sound.preorder_perm.mem_iff.mpr (List.mem_range.mpr (node?_lt found)))
    simp [entryAt, found, within, Node.entry?, resolved]

theorem excerpt_cut_eq (sound : t.Sound index) (kept : (t.cut k).Sound index) (some : 1 ≤ k)
    (foremost : t.Foremost maxDepth k) : (t.cut k).excerpt maxDepth = t.excerpt maxDepth := by
  have same : (t.cut k).resolvedFrom maxDepth 0 = t.resolvedFrom maxDepth 0 := by
    rw [sound.resolvedFrom_cut kept some, sound.resolvedFrom_entries, List.filterMap_filter]
    apply List.filterMap_congr
    intro i listed
    split
    next => rfl
    next beyond =>
      symm
      apply Option.not_isSome_iff_eq_none.mp
      intro adds
      exact beyond (decide_eq_true (sound.foremost_iff.mp foremost i listed adds))
  simp only [excerpt, same]

/-- The counts alone tell when something has been cut off. -/
theorem foremost_of_counts (sound : t.Sound index) (kept : (t.cut k).Sound index) (some : 1 ≤ k)
    (same : ((t.cut k).excerpt maxDepth).depthCounts = (t.excerpt maxDepth).depthCounts) :
    t.Foremost maxDepth k := by
  have totals := congrArg DepthCounts.total same
  rw [total_depthCounts, total_depthCounts] at totals
  simp only [excerpt, List.length_map] at totals
  rw [sound.resolvedFrom_cut kept some, sound.resolvedFrom_entries, List.length_filterMap_eq_countP,
    List.length_filterMap_eq_countP, List.countP_eq_length_filter, List.countP_eq_length_filter,
      List.filter_comm,
    List.length_filter_eq_length_iff] at totals
  apply sound.foremost_iff.mpr
  intro i listed adds
  exact of_decide_eq_true (totals i (List.mem_filter.mpr ⟨listed, adds⟩))

/-- Where no node within the depth comes after a deeper one, counting them is enough. -/
theorem lt_countWithin (inside : i < t.size)
    (shallow : ∀ j ≤ i, ∀ node, t.node? j = some node → node.depth ≤ maxDepth) :
    i < t.countWithin maxDepth := by
  have long : (t.nodes.toList.take (i + 1)).length = i + 1 := by
    rw [List.length_take, Array.length_toList]
    exact Nat.min_eq_left inside
  have all : (t.nodes.toList.take (i + 1)).countP (fun node => node.depth ≤ maxDepth) =
      (t.nodes.toList.take (i + 1)).length := by
    apply List.countP_eq_length.mpr
    intro node listed
    obtain ⟨j, bound, rfl⟩ := List.mem_iff_getElem.mp listed
    rw [long] at bound
    apply decide_eq_true
    apply shallow j (by omega)
    rw [List.getElem_take, Array.getElem_toList]
    exact Array.getElem?_eq_getElem _
  have part := (List.take_sublist (i + 1) t.nodes.toList).countP_le
    (p := fun node => node.depth ≤ maxDepth)
  unfold countWithin
  omega

end CallTree

namespace TreeBuilder
variable {b : TreeBuilder} {tree : CallTree} {root : Text} {direction : Direction}
  {excluded : List Text} {maxDepth i j : Nat} {node other : CallTree.Node}

/-- The children of the root come right after it. -/
theorem build_children (made : (b.build root direction excluded).1 = some tree) :
    ∃ top count, tree.node? 0 = some top ∧ top.children = List.range' 1 count := by
  obtain ⟨_, rfl⟩ := build_some made
  have known : root ∈ b.graph.clearNames excluded root := List.mem_cons_self
  have front : 0 < (b.seed root direction).size := Nat.one_pos
  have inside (names : List Text) : 0 < (b.addChildren (b.seed root direction) 0 names).size :=
    Nat.lt_of_lt_of_le front addChildren_extends.size_le
  rw [unfoldAll_cons rfl known, unfoldAll, unfoldAll_front front (inside _), addChildren_old front]
  exact ⟨_, _, rfl, rfl⟩

theorem build_first_depth (built : b.graph.Built)
    (made : (b.build root direction excluded).1 = some tree) (found : tree.node? i = some node)
    (near : node.depth ≤ 1) (before : j ≤ i) (here : tree.node? j = some other) :
    other.depth ≤ 1 := by
  have sound := build_sound built made
  obtain ⟨top, count, start, run⟩ := build_children made
  have bottom : top.depth = 0 := by
    obtain ⟨_, same, zero⟩ := sound.root
    obtain rfl := Option.some.inj (start.symm.trans same)
    exact zero
  have shallow (c : Nat) (listed : c ∈ top.children) : ∃ child, tree.node? c = some child ∧
      child.depth = 1 := by
    obtain ⟨_, child, there, _, deeper⟩ := sound.listed_child start listed
    exact ⟨child, there, by omega⟩
  rcases Nat.eq_zero_or_pos j with rfl | later
  · obtain rfl := Option.some.inj (start.symm.trans here)
    omega
  · rcases sound.parents i node found with ⟨rfl, _⟩ | ⟨p, above, hangs, below, there, deeper⟩
    · omega
    · -- Only the root has depth zero.
      rcases sound.parents p above there with ⟨rfl, _⟩ | ⟨_, _, _, _, _, deep⟩
      · have listed : i ∈ top.children := (sound.members 0 top start i).mpr ⟨node, found, hangs⟩
        rw [run, List.mem_range'_1] at listed
        obtain ⟨child, present, one⟩ := shallow j (by rw [run, List.mem_range'_1]; omega)
        obtain rfl := Option.some.inj (present.symm.trans here)
        omega
      · omega

/-- The functions one call away stand right behind the root, so for them it is enough to be few. -/
theorem build_foremost (built : b.graph.Built)
    (made : (b.build root direction excluded).1 = some tree) {k : Nat}
    (few : tree.countWithin 1 ≤ k) : tree.Foremost 1 k := by
  intro i node found near _
  refine Nat.lt_of_lt_of_le (CallTree.lt_countWithin (CallTree.node?_lt found) ?_) few
  intro j before other here
  exact build_first_depth built made found near before here

end TreeBuilder

namespace FlowBuilder
variable {b : FlowBuilder} {root : Text} {direction : Direction} {tree : CallTree}
  {graph : CallGraph} {index : FunctionIndex} {cap maxDepth : UInt64} {own : PlacedRecord}

theorem excerpt_made (made : (b.trees.build root direction []).1 = some tree) :
    (b.excerpt root direction).1 = tree.excerpt b.maxDepth.toNat := by
  unfold excerpt
  rcases grown : b.trees.build root direction [] with ⟨_ | other, log⟩
  · rw [grown] at made
    contradiction
  · rw [grown] at made
    obtain rfl := Option.some.inj made
    rfl

theorem contribution_stats (found : b.index.find? root = some own) :
    (b.contribution root).upstream = (b.excerpt root .upstream).1.depthCounts ∧
    (b.contribution root).downstream = (b.excerpt root .downstream).1.depthCounts := by
  unfold contribution
  rw [found]
  exact ⟨rfl, rfl⟩

theorem build_single : (b.build [root]).1 =
    { text := joinContents (keepFirst (b.contribution root).records),
      records := keepFirst (b.contribution root).records
      upstream := (b.contribution root).upstream,
        downstream := (b.contribution root).downstream } := by
  have gathered : b.collected [root] = (b.contribution root).records := List.flatMap_singleton _ _
  have above : b.upstreamStats [root] = (b.contribution root).upstream :=
    contribution_proper.1.nil_merge
  have below : b.downstreamStats [root] = (b.contribution root).downstream :=
    contribution_proper.2.nil_merge
  rw [build_eq, gathered, above, below]

theorem build_unknown (unknown : b.index.find? root = none) : (b.build [root]).1 = {} := by
  obtain ⟨records, above, below⟩ := contribution_unknown unknown
  rw [build_single, records, above, below]
  rfl

def cappedFlow (graph : CallGraph) (index : FunctionIndex) (maxDepth cap : UInt64) (root : Text) :
    BusinessFlow :=
  (build ⟨⟨graph, index, cap⟩, index, maxDepth⟩ [root]).1

/-- The excerpts under a cap and without one are of the same tree, cut and whole. -/
theorem excerpts_capped (built : graph.Built) (some : cap ≠ 0) (maxDepth : UInt64)
    (made : (TreeBuilder.build ⟨graph, index, 0⟩ root direction []).1 = .some tree) :
    let capped := (excerpt ⟨⟨graph, index, cap⟩, index, maxDepth⟩ root direction).1
    let whole := (excerpt ⟨⟨graph, index, 0⟩, index, maxDepth⟩ root direction).1
    (tree.Foremost maxDepth.toNat cap.toNat → capped = whole) ∧
      (capped.depthCounts = whole.depthCounts → tree.Foremost maxDepth.toNat cap.toNat) := by
  intro capped whole
  have cutting := TreeBuilder.build_cut (b := ⟨graph, index, 0⟩) some made
  have shorter : capped = (tree.cut cap.toNat).excerpt maxDepth.toNat := excerpt_made cutting
  have longer : whole = tree.excerpt maxDepth.toNat := excerpt_made made
  have sound : tree.Sound index := TreeBuilder.build_sound (b := ⟨graph, index, 0⟩) built made
  have kept : (tree.cut cap.toNat).Sound index :=
    TreeBuilder.build_sound (b := ⟨graph, index, cap⟩) built cutting
  have least : 1 ≤ cap.toNat := Nat.pos_of_ne_zero (fun zero => some (UInt64.toNat.inj zero))
  rw [shorter, longer]
  exact ⟨CallTree.excerpt_cut_eq sound kept least, CallTree.foremost_of_counts sound kept least⟩

theorem cappedFlow_eq (built : graph.Built) (some : cap ≠ 0)
    (foremost : ∀ direction tree, (TreeBuilder.build ⟨graph, index, 0⟩ root direction []).1 =
      .some tree →
      tree.Foremost maxDepth.toNat cap.toNat) :
    cappedFlow graph index maxDepth cap root = cappedFlow graph index maxDepth 0 root := by
  have same (direction : Direction) :
    (excerpt ⟨⟨graph, index, cap⟩, index, maxDepth⟩ root direction).1 =
      (excerpt ⟨⟨graph, index, 0⟩, index, maxDepth⟩ root direction).1 := by
    obtain ⟨tree, made⟩ :=
      TreeBuilder.build_clear ⟨graph, index, 0⟩ direction (List.not_mem_nil (a := root))
    exact (excerpts_capped built some maxDepth made).1 (foremost direction tree made)
  unfold cappedFlow
  cases found : index.find? root with
  | none => rw [build_unknown found, build_unknown found]
  | some own =>
    rw [build_single, build_single]
    obtain ⟨above, below⟩ := contribution_stats (b := ⟨⟨graph, index, cap⟩, index, maxDepth⟩) found
    obtain ⟨above', below'⟩ := contribution_stats (b := ⟨⟨graph, index, 0⟩, index, maxDepth⟩) found
    rw [contribution_records found, contribution_records found, above, below, above', below',
      same .upstream,
      same .downstream]

/-- A cap on the nodes leaves the flow of a known root as it is exactly if the resolved nodes within
the depth are among those there is room for. For the functions one call away it is enough that there
is room for as many nodes as that. -/
theorem capped_flow_eq_iff (graph : CallGraph) (built : graph.Built) (index : FunctionIndex)
    (maxDepth cap : UInt64) (some : cap ≠ 0) (root : Text) :
    ((index.find? root).isSome →
      (cappedFlow graph index maxDepth cap root = cappedFlow graph index maxDepth 0 root ↔
        ∀ direction tree, (TreeBuilder.build ⟨graph, index, 0⟩ root direction []).1 = .some tree →
          tree.Foremost maxDepth.toNat cap.toNat)) ∧
    (index.find? root = none →
      cappedFlow graph index maxDepth cap root = cappedFlow graph index maxDepth 0 root) ∧
    (maxDepth = 1 →
      (∀ direction tree, (TreeBuilder.build ⟨graph, index, 0⟩ root direction []).1 = .some tree →
        tree.countWithin 1 ≤ cap.toNat) →
      cappedFlow graph index maxDepth cap root = cappedFlow graph index maxDepth 0 root) := by
  refine ⟨fun known => ⟨fun same direction tree made => ?_, cappedFlow_eq built some⟩,
    fun unknown => ?_, ?_⟩
  · obtain ⟨own, found⟩ := Option.isSome_iff_exists.mp known
    unfold cappedFlow at same
    rw [build_single, build_single] at same
    obtain ⟨above, below⟩ := contribution_stats (b := ⟨⟨graph, index, cap⟩, index, maxDepth⟩) found
    obtain ⟨above', below'⟩ := contribution_stats (b := ⟨⟨graph, index, 0⟩, index, maxDepth⟩) found
    apply (excerpts_capped built some maxDepth made).2
    cases direction with
    | upstream => rw [← above, ← above']; exact congrArg BusinessFlow.upstream same
    | downstream => rw [← below, ← below']; exact congrArg BusinessFlow.downstream same
  · unfold cappedFlow
    rw [build_unknown unknown, build_unknown unknown]
  · rintro rfl few
    apply cappedFlow_eq built some
    intro direction tree made
    exact TreeBuilder.build_foremost built made (few direction tree made)

/-- A job loads, which parses and decodes, and then saves, which closes. -/
def pipeline : List FunctionRecord :=
  [("Job.run", "load save"), ("Job.load", "parse"), ("Job.save", "close"), ("Job.parse", "decode"),
    ("Job.decode", "{}"), ("Job.close", "{}")].map fun (name, content) =>
      { name := utf8 name, content := utf8 content }

theorem pipeline_calls : CallGraph.ofMentions pipeline = (CallGraph.ofNames pipeline).addCalls
    [(utf8 "run", utf8 "load"), (utf8 "run", utf8 "save"), (utf8 "load", utf8 "parse"),
      (utf8 "parse", utf8 "decode"),
      (utf8 "save", utf8 "close")] := rfl

theorem pipeline_few (direction : Direction) {tree : CallTree}
    (made : (TreeBuilder.build ⟨CallGraph.ofMentions pipeline, ⟨pipeline⟩, 0⟩ (utf8 "run") direction
      []).1 = some tree) :
    tree.countWithin 1 ≤ 3 ∧ tree.countWithin 2 ≤ 5 ∧ tree.nodes.size ≤ 6 := by
  have few :
    (TreeBuilder.build ⟨CallGraph.ofMentions pipeline, ⟨pipeline⟩, 0⟩ (utf8 "run") direction
      []).1.map (fun tree =>
        decide (tree.countWithin 1 ≤ 3 ∧ tree.countWithin 2 ≤ 5 ∧ tree.nodes.size ≤ 6)) =
      some true := by
    rw [pipeline_calls]
    cases direction <;> cbv
  rw [made] at few
  exact of_decide_eq_true (Option.some.inj few)

/-- Of the functions one call away all find room beside the root, and nothing else is looked at. Of
those two calls away all find room among six nodes. -/
theorem capped_flow_eq_iff_pipeline :
    (TreeBuilder.build ⟨CallGraph.ofMentions pipeline, ⟨pipeline⟩, 3⟩ (utf8 "run")
      .downstream []).1.map
      CallTree.truncated = some true ∧
    cappedFlow (CallGraph.ofMentions pipeline) ⟨pipeline⟩ 1 3 (utf8 "run") =
      cappedFlow (CallGraph.ofMentions pipeline) ⟨pipeline⟩ 1 0 (utf8 "run") ∧
    cappedFlow (CallGraph.ofMentions pipeline) ⟨pipeline⟩ 2 6 (utf8 "run") =
      cappedFlow (CallGraph.ofMentions pipeline) ⟨pipeline⟩ 2 0 (utf8 "run") := by
  have built : (CallGraph.ofMentions pipeline).Built := CallGraph.ofMentions_built pipeline
  refine ⟨?_, ?_, ?_⟩
  · rw [pipeline_calls]
    cbv
  · obtain ⟨_, _, near⟩ := capped_flow_eq_iff (CallGraph.ofMentions pipeline) built ⟨pipeline⟩ 1 3
      (by decide) (utf8 "run")
    apply near rfl
    intro direction tree made
    exact (pipeline_few direction made).1
  · obtain ⟨known, _, _⟩ := capped_flow_eq_iff (CallGraph.ofMentions pipeline) built ⟨pipeline⟩ 2 6
      (by decide) (utf8 "run")
    apply (known (by decide)).mpr
    intro direction tree made i node found _ _
    exact Nat.lt_of_lt_of_le (CallTree.node?_lt found) (pipeline_few direction made).2.2

/-- Of the five nodes within two calls of the root the last, `close`, comes after a function three
calls away. With room for five nodes it is left out, though that is as many as there are within the
depth. -/
theorem deep_function_displaces_near :
    (∀ direction tree,
      (TreeBuilder.build ⟨CallGraph.ofMentions pipeline, ⟨pipeline⟩, 0⟩ (utf8 "run") direction []).1
        = some tree →
        tree.countWithin 2 ≤ 5) ∧
    (let flow := cappedFlow (CallGraph.ofMentions pipeline) ⟨pipeline⟩ 2 5 (utf8 "run")
     flow.records.map PlacedRecord.place = [0, 1, 3, 2] ∧
       flow.downstream = [(0, 1), (1, 2), (2, 1)]) ∧
    (let flow := cappedFlow (CallGraph.ofMentions pipeline) ⟨pipeline⟩ 2 0 (utf8 "run")
     flow.records.map PlacedRecord.place = [0, 1, 3, 2, 5] ∧
       flow.downstream = [(0, 1), (1, 2), (2, 2)]) := by
  refine ⟨fun direction tree made => (pipeline_few direction made).2.1, ?_, ?_⟩
  · rw [pipeline_calls]
    constructor <;> cbv
  · rw [pipeline_calls]
    constructor <;> cbv

end FlowBuilder
end CodeAudit
