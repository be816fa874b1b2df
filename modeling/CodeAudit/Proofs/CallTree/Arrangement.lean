import CodeAudit.Proofs.CallTree.Enumeration
import CodeAudit.Proofs.CallTree.Preorder

/-! How an arena is arranged: the root in front, every other node in exactly one list of children,
and the children of a node next to each other. Children are only ever added all at once and to a
node without any, so a cap that stops the unfolding leaves the arrangement as it is. -/
namespace CodeAudit
namespace CallTree

/-- The children stand next to each other in the arena. -/
def Node.Consecutive (node : Node) : Prop :=
  ∃ first, node.children = List.range' first node.children.length

structure Arranged (root : Text) (t : CallTree) : Prop where
  root : ∃ node, t.node? 0 = some node ∧ node.name = root ∧ node.parent = none ∧ node.depth = 0
  parents : ∀ i node, 0 < i → t.node? i = some node → ∃ p above, node.parent = some p ∧ p < i ∧
    t.node? p = some above ∧ node.depth = above.depth + 1 ∧ i ∈ above.children
  /-- All lists of children together hold every index but the root's, and each just once. -/
  once : (t.nodes.toList.flatMap Node.children).Perm (List.range' 1 (t.size - 1))
  consecutive : ∀ node ∈ t.nodes.toList, node.Consecutive

variable {index : FunctionIndex} {t : CallTree} {i j : Nat} {node : Node}

theorem mem_nodes : node ∈ t.nodes.toList ↔ ∃ i, t.node? i = some node := by
  rw [Array.mem_toList_iff]
  exact Array.mem_iff_getElem?

theorem Sound.parent_lists (sound : t.Sound index) (below : 0 < i) (found : t.node? i = some node) :
    ∃ p above, node.parent = some p ∧ p < i ∧ t.node? p = some above ∧
      node.depth = above.depth + 1 ∧
      i ∈ above.children := by
  rcases sound.parents i node found with ⟨rfl, _⟩ | ⟨p, above, hangs, before, there, deeper⟩
  · exact absurd below (Nat.lt_irrefl 0)
  · have listed : i ∈ above.children := (sound.members p above there i).mpr ⟨node, found, hangs⟩
    exact ⟨p, above, hangs, before, there, deeper, listed⟩

theorem Sound.mem_children (sound : t.Sound index) :
    j ∈ t.nodes.toList.flatMap Node.children ↔ 0 < j ∧ j < t.size := by
  rw [List.mem_flatMap]
  constructor
  · rintro ⟨node, present, listed⟩
    obtain ⟨i, found⟩ := mem_nodes.mp present
    obtain ⟨behind, child, here, _⟩ := sound.listed_child found listed
    exact ⟨Nat.zero_lt_of_lt behind, node?_lt here⟩
  · rintro ⟨below, inside⟩
    obtain ⟨node, found⟩ := node?_of_lt inside
    obtain ⟨p, above, _, _, there, _, listed⟩ := sound.parent_lists below found
    exact ⟨above, mem_nodes.mpr ⟨p, there⟩, listed⟩

theorem Sound.children_once (sound : t.Sound index) :
    (t.nodes.toList.flatMap Node.children).Nodup := by
  apply List.nodup_flatMap.mpr
  constructor
  · intro node present
    obtain ⟨i, found⟩ := mem_nodes.mp present
    exact sound.children_nodup found
  · -- A child in two lists would have two parents.
    apply List.pairwise_iff_getElem.mpr
    intro i j first second before c here there
    rw [Array.length_toList] at first second
    obtain ⟨_, child, found, hangs, _⟩ := sound.listed_child (Array.getElem?_eq_getElem first) here
    obtain ⟨_, same, again, other, _⟩ := sound.listed_child (Array.getElem?_eq_getElem second) there
    obtain rfl := Option.some.inj (found.symm.trans again)
    have := Option.some.inj (hangs.symm.trans other)
    omega

theorem Sound.children_perm (sound : t.Sound index) :
    (t.nodes.toList.flatMap Node.children).Perm (List.range' 1 (t.size - 1)) := by
  apply (List.perm_ext_iff_of_nodup sound.children_once List.nodup_range').mpr
  intro j
  rw [sound.mem_children, List.mem_range'_1]
  omega

end CallTree

namespace TreeBuilder
variable {b : TreeBuilder} {t tree : CallTree} {allowed siblings names : List Text} {first i : Nat}
  {root : Text} {direction : Direction} {excluded : List Text} {node : CallTree.Node}

theorem addChildren_consecutive (each : ∀ i node, t.node? i = some node → node.Consecutive)
    (found : (b.addChildren t first names).node? i = some node) : node.Consecutive := by
  rcases addChildren_cases found with ⟨old, there, rfl⟩ | ⟨k, name, rfl, _, rfl⟩
  · split
    · exact ⟨t.size, by rw [List.length_range']⟩
    · exact each i old there
  · exact ⟨0, rfl⟩

theorem unfoldAll_consecutive (each : ∀ i node, t.node? i = some node → node.Consecutive)
    (found : (b.unfoldAll allowed siblings first t).node? i = some node) : node.Consecutive := by
  refine unfoldAll_keeps (motive := fun later => ∀ i node, later.node? i = some node →
    node.Consecutive) ?_ each i node
    found
  intro later parent name below each i node found
  exact addChildren_consecutive each found

theorem build_arranged (built : b.graph.Built)
    (made : (b.build root direction excluded).1 = some tree) :
    tree.Arranged root := by
  have sound := build_sound built made
  obtain ⟨_, rfl⟩ := build_some made
  constructor
  case root =>
    have grown :
      (b.unfoldAll (b.graph.clearNames excluded root) [root] 0 (b.seed root direction)).Extends
      (b.seed root direction) := unfoldAll_extends
    obtain ⟨children, found⟩ := grown 0 _ rfl
    exact ⟨_, found, rfl, rfl, rfl⟩
  case parents =>
    intro i node below found
    exact sound.parent_lists below found
  case once => exact sound.children_perm
  case consecutive =>
    intro node present
    obtain ⟨i, found⟩ := CallTree.mem_nodes.mp present
    apply unfoldAll_consecutive _ found
    intro i node seeded
    obtain ⟨_, rfl⟩ := CallTree.node?_single seeded
    exact ⟨0, rfl⟩

end TreeBuilder
end CodeAudit
