import CodeAudit.Proofs.CallTree.DepthCounts
import CodeAudit.Proofs.CallTree.Enumeration
import CodeAudit.Proofs.CallTree.Preorder
import Mathlib

/-! What an excerpt takes from a tree. Reading stops below the depth asked for, and as nodes only
lie deeper further down, nothing within the depth is missed. -/
namespace CodeAudit
namespace CallTree

/-- The resolved nodes within a depth, in the order in which the whole tree is read. -/
def resolvedNodes (t : CallTree) (maxDepth : Nat) : List Node :=
  (t.nodesFrom 0).filter (fun node => node.depth ≤ maxDepth ∧ node.record.isSome)

def Node.entry? (node : Node) : Option (Nat × PlacedRecord) :=
  node.record.map (fun p => (node.depth, p))

variable {index : FunctionIndex} {t : CallTree} {maxDepth lesser i : Nat} {node : Node}
  {record : PlacedRecord}

theorem resolvedFrom_deep (found : t.node? i = some node) (deep : maxDepth < node.depth) :
    t.resolvedFrom maxDepth i = [] := by
  obtain ⟨inside, rfl⟩ := Array.getElem?_eq_some_iff.mp found
  rw [resolvedFrom, dif_pos inside]
  exact if_pos deep

theorem Sound.resolvedFrom_node (sound : t.Sound index) (found : t.node? i = some node)
    (within : node.depth ≤ maxDepth) :
    t.resolvedFrom maxDepth i = node.entry?.toList ++ node.children.flatMap
      (t.resolvedFrom maxDepth) := by
  obtain ⟨inside, rfl⟩ := Array.getElem?_eq_some_iff.mp found
  rw [resolvedFrom, dif_pos inside]
  simp only [if_neg (Nat.not_lt.mpr within)]
  congr 1
  -- At the depth itself the children are not looked at, and they would add nothing.
  split
  next => exact List.flatMap_congr (fun c listed => if_pos (sound.listed_child found listed).1)
  next last =>
    symm
    apply List.flatMap_eq_nil_iff.mpr
    intro c listed
    obtain ⟨_, child, here, _, deeper⟩ := sound.listed_child found listed
    exact resolvedFrom_deep here (by omega)

/-- Reading to a depth comes to the same as reading everything and leaving out what lies deeper. -/
theorem Sound.resolvedFrom_eq (sound : t.Sound index) (found : t.node? i = some node) :
    t.resolvedFrom maxDepth i = ((t.nodesFrom i).filter (fun n => n.depth ≤ maxDepth)).filterMap
      Node.entry? := by
  apply sound.descend (motive := fun i _ => t.resolvedFrom maxDepth i =
    ((t.nodesFrom i).filter (fun n => n.depth ≤ maxDepth)).filterMap Node.entry?) _ found
  intro i node found ih
  by_cases within : node.depth ≤ maxDepth
  · have below : node.children.flatMap (t.resolvedFrom maxDepth) = node.children.flatMap (fun c =>
        ((t.nodesFrom c).filter (fun n => n.depth ≤ maxDepth)).filterMap Node.entry?) := by
      apply List.flatMap_congr
      intro c listed
      obtain ⟨_, child, here, _⟩ := sound.listed_child found listed
      exact ih c listed child here
    rw [sound.resolvedFrom_node found within, below, sound.nodesFrom_node found,
      List.filter_cons_of_pos (by simpa using within),
        List.filter_flatMap, ← List.filterMap_flatMap]
    cases own : node.entry? with
    | none => rw [List.filterMap_cons_none own]; rfl
    | some entry => rw [List.filterMap_cons_some own]; rfl
  · have none : (t.nodesFrom i).filter (fun n => n.depth ≤ maxDepth) = [] := by
      apply List.filter_eq_nil_iff.mpr
      intro other read
      have deep := sound.nodesFrom_depth found read
      simp only [decide_eq_true_eq]
      omega
    rw [resolvedFrom_deep found (by omega), none, List.filterMap_nil]

theorem filterMap_entry? (nodes : List Node) :
    (nodes.filter (fun node => node.record.isSome)).filterMap Node.entry? =
      nodes.filterMap Node.entry? := by
  rw [List.filterMap_filter]
  apply List.filterMap_congr
  intro node _
  cases resolved : node.record <;> simp [Node.entry?, resolved]

theorem Sound.resolvedFrom_root (sound : t.Sound index) :
    t.resolvedFrom maxDepth 0 = (t.resolvedNodes maxDepth).filterMap Node.entry? := by
  obtain ⟨root, top, _⟩ := sound.root
  rw [sound.resolvedFrom_eq top, ← filterMap_entry?, List.filter_filter, resolvedNodes]
  congr 1
  apply List.filter_congr
  intro node _
  simp only [Bool.decide_and, Bool.and_comm, Bool.decide_eq_true]

theorem Sound.excerpt_records (sound : t.Sound index) :
    (t.excerpt maxDepth).records = (t.resolvedNodes maxDepth).filterMap Node.record := by
  change (t.resolvedFrom maxDepth 0).map Prod.snd = _
  rw [sound.resolvedFrom_root, List.map_filterMap]
  apply List.filterMap_congr
  intro node _
  simp [Node.entry?, Option.map_map, Function.comp_def]

theorem depthCounts_proper : (t.excerpt maxDepth).depthCounts.Proper := DepthCounts.proper_nil.tally

theorem resolved_isSome (listed : node ∈ t.resolvedNodes maxDepth) : node.record.isSome := by
  have chosen := (List.mem_filter.mp listed).2
  simp only [decide_eq_true_eq] at chosen
  exact chosen.2

theorem Sound.count_depthCounts (sound : t.Sound index) (depth : Nat) :
    (t.excerpt maxDepth).depthCounts.count depth =
      (t.resolvedNodes maxDepth).countP (fun node => node.depth = depth) := by
  have counted : (t.excerpt maxDepth).depthCounts =
      DepthCounts.tally [] (t.resolvedFrom maxDepth 0) := rfl
  rw [counted, DepthCounts.count_tally, DepthCounts.count_nil, Nat.zero_add,
    sound.resolvedFrom_root, List.countP_filterMap]
  apply List.countP_congr
  intro node listed
  obtain ⟨record, resolved⟩ := Option.isSome_iff_exists.mp (resolved_isSome listed)
  simp [Node.entry?, resolved]

theorem total_depthCounts : (t.excerpt maxDepth).depthCounts.total =
    (t.excerpt maxDepth).records.length := by
  have counted : (t.excerpt maxDepth).depthCounts =
      DepthCounts.tally [] (t.resolvedFrom maxDepth 0) := rfl
  rw [counted, DepthCounts.total_tally]
  simp [excerpt, DepthCounts.total]

theorem resolvedNodes_within (narrower : lesser ≤ maxDepth) :
    t.resolvedNodes lesser = (t.resolvedNodes maxDepth).filter
      (fun node => node.depth ≤ lesser) := by
  unfold resolvedNodes
  rw [List.filter_filter]
  apply List.filter_congr
  intro node _
  rw [Bool.eq_iff_iff]
  simp only [Bool.and_eq_true, decide_eq_true_eq]
  constructor
  · rintro ⟨near, resolved⟩
    exact ⟨near, Nat.le_trans near narrower, resolved⟩
  · rintro ⟨near, _, resolved⟩
    exact ⟨near, resolved⟩

theorem Sound.depthCounts_within (sound : t.Sound index) (narrower : lesser ≤ maxDepth) :
    (t.excerpt lesser).depthCounts = (t.excerpt maxDepth).depthCounts.filter
      (fun entry => entry.1 ≤ lesser) := by
  apply depthCounts_proper.ext (depthCounts_proper.within lesser)
  intro depth
  rw [DepthCounts.count_within, sound.count_depthCounts, sound.count_depthCounts,
    resolvedNodes_within narrower,
    List.countP_filter]
  split
  next shallow =>
    apply List.countP_congr
    intro node _
    simp only [Bool.and_eq_true, decide_eq_true_eq]
    omega
  next deep =>
    apply List.countP_eq_zero.mpr
    intro node _
    simp only [Bool.and_eq_true, decide_eq_true_eq]
    omega

/-- An excerpt holds the records of the nodes within its depth. -/
theorem Sound.mem_excerpt (sound : t.Sound index) :
    record ∈ (t.excerpt maxDepth).records ↔
      ∃ i node, t.node? i = some node ∧ node.depth ≤ maxDepth ∧ node.record = some record := by
  rw [sound.excerpt_records, List.mem_filterMap]
  constructor
  · rintro ⟨node, listed, present⟩
    obtain ⟨read, chosen⟩ := List.mem_filter.mp listed
    obtain ⟨i, _, found⟩ := List.mem_filterMap.mp read
    simp only [decide_eq_true_eq] at chosen
    exact ⟨i, node, found, chosen.1, present⟩
  · rintro ⟨i, node, found, within, present⟩
    have read : i ∈ t.preorder :=
      sound.preorder_perm.mem_iff.mpr (List.mem_range.mpr (node?_lt found))
    refine ⟨node, List.mem_filter.mpr ⟨List.mem_filterMap.mpr ⟨i, read, found⟩, ?_⟩, present⟩
    simp [within, present]

end CallTree

namespace TreeBuilder

/-- An excerpt holds the records of the resolved nodes within its depth, in the order in which the
tree is read, and counts them by depth. Asking for less depth leaves out the deeper ones. -/
theorem excerpt_reads_preorder (b : TreeBuilder) (built : b.graph.Built) (root : Text)
    (direction : Direction) (excluded : List Text) {tree : CallTree}
    (made : (b.build root direction excluded).1 = some tree) :
    tree.preorder.Perm (List.range tree.size) ∧
    (∀ i node, tree.node? i = some node →
      tree.preorderFrom i = i :: node.children.flatMap tree.preorderFrom) ∧
    ∀ maxDepth,
      let nodes := tree.resolvedNodes maxDepth
      let excerpt := tree.excerpt maxDepth
      excerpt.records = nodes.filterMap CallTree.Node.record ∧
      excerpt.depthCounts.Pairwise (fun shallow deep => shallow.1 < deep.1) ∧
      (∀ depth count, (depth, count) ∈ excerpt.depthCounts ↔
        0 < count ∧ count = nodes.countP (fun node => node.depth = depth)) ∧
      (excerpt.depthCounts.map Prod.snd).sum = excerpt.records.length ∧
      ∀ lesser ≤ maxDepth,
        (tree.excerpt lesser).records =
          (nodes.filter (fun node => node.depth ≤ lesser)).filterMap CallTree.Node.record ∧
        (tree.excerpt lesser).depthCounts = excerpt.depthCounts.filter
          (fun entry => entry.1 ≤ lesser) := by
  have sound := build_sound built made
  refine ⟨sound.preorder_perm, fun i node found => sound.preorderFrom_node found, ?_⟩
  intro maxDepth nodes excerpt
  have proper : excerpt.depthCounts.Proper := CallTree.depthCounts_proper
  refine ⟨sound.excerpt_records, proper.ordered, ?_, CallTree.total_depthCounts, ?_⟩
  · intro depth count
    rw [proper.mem_iff, sound.count_depthCounts]
  · intro lesser narrower
    constructor
    · rw [sound.excerpt_records, CallTree.resolvedNodes_within narrower]
    · exact sound.depthCounts_within narrower

/-- An order is priced, with tax at some rate, and stored. -/
def ordering : CallGraph :=
  (((({} : CallGraph).addCall (utf8 "order") (utf8 "price")).addCall (utf8 "order")
    (utf8 "store")).addCall
    (utf8 "price") (utf8 "tax")).addCall (utf8 "tax") (utf8 "rate")

/-- There is no record of the pricing. -/
def warehouse : FunctionIndex :=
  { records := ["order", "store", "tax", "rate"].map fun name =>
    { name := utf8 name, content := utf8 name } }

/-- The tree is cut short, and the excerpt gets to the tax through the pricing, before it gets to
the store. -/
theorem excerpt_reads_preorder_ordering : ∃ tree,
    (build ⟨ordering, warehouse, 4⟩ (utf8 "order") .downstream []).1 = some tree ∧
      tree.truncated = true ∧
    tree.preorder = [0, 1, 3, 2] ∧ tree.preorder.Perm (List.range tree.size) ∧
    (tree.excerpt 2).records.map PlacedRecord.place = [0, 2, 1] ∧
    (tree.excerpt 1).depthCounts = [(0, 1), (1, 1)] := by
  have seen : (build ⟨ordering, warehouse, 4⟩ (utf8 "order") .downstream []).1.map (fun tree =>
      (tree.truncated, tree.preorder, (tree.excerpt 2).records.map PlacedRecord.place,
        (tree.excerpt 2).depthCounts)) =
      some (true, [0, 1, 3, 2], [0, 2, 1], [(0, 1), (1, 1), (2, 1)]) := by cbv
  obtain ⟨tree, made, same⟩ := Option.map_eq_some_iff.mp seen
  simp only [Prod.mk.injEq] at same
  obtain ⟨short, order, places, counts⟩ := same
  have built : ordering.Built := .addCall _ _ (.addCall _ _ (.addCall _ _ (.addCall _ _ .empty)))
  obtain ⟨once, _, reads⟩ :=
    excerpt_reads_preorder ⟨ordering, warehouse, 4⟩ built (utf8 "order") .downstream [] made
  obtain ⟨_, _, _, _, narrower⟩ := reads 2
  refine ⟨tree, made, short, order, once, places, ?_⟩
  rw [(narrower 1 (by decide)).2, counts]
  rfl

end TreeBuilder
end CodeAudit
