import CodeAudit.CallTree

/-! What an arena holds while a tree unfolds. A node keeps its name, its parent and its depth, so
the way to it never changes; every node hangs below an earlier one, and the children of a node stand
side by side in the order of their names. -/
namespace CodeAudit

namespace CallTree
variable {t later last : CallTree} {i : Nat} {node : Node}

theorem node?_lt (found : t.node? i = some node) : i < t.size :=
  (Array.getElem?_eq_some_iff.mp found).1

theorem node?_of_lt (inside : i < t.size) : ∃ node, t.node? i = some node :=
  ⟨_, Array.getElem?_eq_getElem inside⟩

/-- An arena of one node has no other. -/
theorem node?_single {direction : Direction} {only : Node}
    (found : node? { direction, nodes := #[only] } i = some node) : i = 0 ∧ node = only := by
  have bound : i < 1 := node?_lt found
  obtain rfl : i = 0 := by omega
  exact ⟨rfl, (Option.some.inj found).symm⟩

theorem nodes_range (t : CallTree) : (List.range t.size).map t.node? = t.nodes.toList.map some := by
  apply List.ext_getElem
  · simp [size]
  · intro i _ _
    simp [node?]

/-- The way to a node goes on from the way to its parent. -/
theorem pathTo_node (found : t.node? i = some node) :
    t.pathTo i = (match node.parent with
      | some p => if p < i then t.pathTo p else []
      | none => []) ++ [node.name] := by
  have here : t.nodes[i]? = some node := found
  unfold pathTo
  rw [ancestry, here]
  rcases parent : node.parent with _ | p
  · simp [parent, found]
  · by_cases below : p < i <;> simp [parent, below, found]

theorem pathTo_last (found : t.node? i = some node) : (t.pathTo i).getLast? = some node.name := by
  rw [pathTo_node found, List.getLast?_concat]

theorem pathTo_child {p : Nat} (found : t.node? i = some node) (parent : node.parent = some p)
    (below : p < i) :
    t.pathTo i = t.pathTo p ++ [node.name] := by
  rw [pathTo_node found, parent]
  simp only [if_pos below]

/-- Every node stays what it is, its children apart. -/
def Extends (later t : CallTree) : Prop :=
  ∀ i node, t.node? i = some node → ∃ children, later.node? i = some { node with children }

theorem Extends.refl (t : CallTree) : t.Extends t := fun _ node found => ⟨node.children, found⟩

theorem Extends.trans (further : last.Extends later) (grown : later.Extends t) :
    last.Extends t := by
  intro i node found
  obtain ⟨children, found⟩ := grown i node found
  obtain ⟨again, found⟩ := further i _ found
  exact ⟨again, found⟩

theorem Extends.size_le (grown : later.Extends t) : t.size ≤ later.size := by
  refine Nat.le_of_not_lt (fun above => ?_)
  obtain ⟨node, found⟩ := node?_of_lt above
  obtain ⟨children, found⟩ := grown _ node found
  exact Nat.lt_irrefl _ (node?_lt found)

theorem Extends.pathTo (grown : later.Extends t) (inside : i < t.size) :
    later.pathTo i = t.pathTo i := by
  induction i using Nat.strongRecOn with
  | ind i ih =>
    obtain ⟨node, found⟩ := node?_of_lt inside
    obtain ⟨children, kept⟩ := grown i node found
    rw [pathTo_node found, pathTo_node kept]
    congr 1
    -- A parent stands in front of its children, so the way to it is covered by the induction.
    rcases node.parent with _ | p
    · rfl
    · by_cases below : p < i
      · simp only [if_pos below]
        exact ih p below (Nat.lt_trans below inside)
      · simp only [if_neg below]

/-- The ways to all nodes, in the order of the arena. -/
def paths (t : CallTree) : List (List Text) := (List.range t.size).map t.pathTo

theorem Extends.paths (grown : later.Extends t) :
    later.paths = t.paths ++ (List.range' t.size (later.size - t.size)).map later.pathTo := by
  have split : later.size = t.size + (later.size - t.size) := by have := grown.size_le; omega
  unfold CallTree.paths
  conv => lhs; rw [split, List.range_add, List.map_append]
  rw [List.range'_eq_map_range]
  congr 1
  exact List.map_congr_left (fun i member => grown.pathTo (List.mem_range.mp member))

end CallTree

namespace TreeBuilder
variable {b : TreeBuilder} {t later : CallTree} {parent i : Nat} {names : List Text}
  {node : CallTree.Node}

def fitting (b : TreeBuilder) (t : CallTree) (names : List Text) : List Text :=
  names.take (b.room t names.length)

theorem fitting_all (whole : (b.addChildren t parent names).truncated = false) :
    b.fitting t names = names := by
  have enough : ¬(b.fitting t names).length < names.length := of_decide_eq_false whole
  unfold fitting at enough ⊢
  rw [List.length_take] at enough
  exact List.take_of_length_le (by omega)

theorem fitting_uncapped (uncapped : b.maxNodes = 0) : b.fitting t names = names := by
  simp [fitting, room, uncapped]

theorem addChildren_uncapped (uncapped : b.maxNodes = 0) :
    (b.addChildren t parent names).truncated = false := by
  have whole : b.fitting t names = names := fitting_uncapped uncapped
  change decide ((b.fitting t names).length < names.length) = false
  simp [whole]

def child (b : TreeBuilder) (t : CallTree) (parent : Nat) (name : Text) : CallTree.Node :=
  { name, record := b.index.find? name, parent := some parent
    depth := ((t.node? parent).map CallTree.Node.depth).getD 0 + 1 }

/-- The arena with the children recorded at their parent and put at the end. -/
theorem addChildren_nodes : (b.addChildren t parent names).nodes.toList =
    t.nodes.toList.modify parent
      (fun n => { n with children := List.range' t.size (b.fitting t names).length }) ++
      (b.fitting t names).map (b.child t parent) := by
  simp only [addChildren, Array.toList_appendList, Array.toList_modify]
  rfl

theorem addChildren_size : (b.addChildren t parent names).size =
    t.size + (b.fitting t names).length := by
  simp [CallTree.size, ← Array.length_toList, addChildren_nodes]

theorem addChildren_new (k : Nat) :
    (b.addChildren t parent names).node? (t.size + k) =
      (b.fitting t names)[k]?.map (b.child t parent) := by
  rw [CallTree.node?, ← Array.getElem?_toList, addChildren_nodes, List.getElem?_append_right] <;>
    simp [CallTree.size]

theorem addChildren_child {k : Nat} (bound : k < (b.fitting t names).length) :
    (b.addChildren t parent names).node? (t.size + k) =
      some (b.child t parent (b.fitting t names)[k]) := by
  rw [addChildren_new, List.getElem?_eq_getElem bound, Option.map_some]

theorem addChildren_old (inside : i < t.size) :
    (b.addChildren t parent names).node? i = (t.node? i).map (fun n =>
      if parent = i then { n with children := List.range' t.size (b.fitting t names).length }
      else n) := by
  have bound : i < (t.nodes.toList.modify parent (fun n =>
      { n with children := List.range' t.size (b.fitting t names).length })).length := by
    simpa [CallTree.size] using inside
  rw [CallTree.node?, ← Array.getElem?_toList, addChildren_nodes, List.getElem?_append_left bound,
    List.getElem?_modify, Array.getElem?_toList]
  split <;> simp_all [CallTree.node?]

theorem addChildren_extends : (b.addChildren t parent names).Extends t := by
  intro i node found
  rw [addChildren_old (CallTree.node?_lt found), found]
  by_cases same : parent = i
  · exact ⟨_, by rw [Option.map_some, if_pos same]⟩
  · exact ⟨node.children, by rw [Option.map_some, if_neg same]⟩

/-- A node with children added is one that was there or one of the children. -/
theorem addChildren_cases (found : (b.addChildren t parent names).node? i = some node) :
    (∃ old, t.node? i = some old ∧ node =
      if parent = i then { old with children := List.range' t.size (b.fitting t names).length }
      else old) ∨
    ∃ k name, i = t.size + k ∧ (b.fitting t names)[k]? = some name ∧
      node = b.child t parent name := by
  by_cases inside : i < t.size
  · rw [addChildren_old inside, Option.map_eq_some_iff] at found
    obtain ⟨old, present, rfl⟩ := found
    exact .inl ⟨old, present, rfl⟩
  · obtain ⟨k, rfl⟩ := Nat.exists_eq_add_of_le (Nat.le_of_not_lt inside)
    rw [addChildren_new, Option.map_eq_some_iff] at found
    obtain ⟨name, listed, rfl⟩ := found
    exact .inr ⟨k, name, rfl, listed, rfl⟩

theorem addChildren_paths (inside : parent < t.size) :
    (b.addChildren t parent names).paths =
      t.paths ++ (b.fitting t names).map (fun name => t.pathTo parent ++ [name]) := by
  have grown : (b.addChildren t parent names).Extends t := addChildren_extends
  rw [grown.paths, addChildren_size, Nat.add_sub_cancel_left]
  congr 1
  refine List.ext_getElem (by simp) (fun k first second => ?_)
  have bound : k < (b.fitting t names).length := by simpa using second
  have below : parent < t.size + k := by omega
  simp only [List.getElem_map, List.getElem_range', Nat.one_mul]
  rw [CallTree.pathTo_child (addChildren_child bound) rfl below, grown.pathTo inside]
  rfl

end TreeBuilder

namespace CallTree

/-- The names of two nodes are in strict order. -/
def Before (t : CallTree) (i j : Nat) : Prop :=
  ∃ first second, t.node? i = some first ∧ t.node? j = some second ∧ first.name < second.name

/-- An arena of a tree with records from an index: the root in front, every other node below an
earlier one, which lists it among its children in the order of names. -/
structure Sound (index : FunctionIndex) (t : CallTree) : Prop where
  root : ∃ node, t.node? 0 = some node ∧ node.depth = 0
  records : ∀ i node, t.node? i = some node → node.record = index.find? node.name
  parents : ∀ i node, t.node? i = some node → (i = 0 ∧ node.parent = none) ∨
    ∃ p above, node.parent = some p ∧ p < i ∧ t.node? p = some above ∧ node.depth = above.depth + 1
  members : ∀ i node, t.node? i = some node →
    ∀ j, j ∈ node.children ↔ ∃ child, t.node? j = some child ∧ child.parent = some i
  ordered : ∀ i node, t.node? i = some node → node.children.Pairwise t.Before

variable {index : FunctionIndex} {t later : CallTree} {i : Nat} {node : Node}

theorem Extends.before {j : Nat} (grown : later.Extends t) (before : t.Before i j) :
    later.Before i j := by
  obtain ⟨first, second, here, there, below⟩ := before
  obtain ⟨_, here⟩ := grown i first here
  obtain ⟨_, there⟩ := grown j second there
  exact ⟨_, _, here, there, below⟩

/-- A node lies as deep as the way to it is long. -/
theorem Sound.depth (sound : t.Sound index) (found : t.node? i = some node) :
    node.depth + 1 = (t.pathTo i).length := by
  induction i using Nat.strongRecOn generalizing node with
  | ind i ih =>
    rcases sound.parents i node found with ⟨rfl, none⟩ | ⟨p, above, parent, below, present, deeper⟩
    · obtain ⟨root, here, zero⟩ := sound.root
      obtain rfl := Option.some.inj (found.symm.trans here)
      rw [pathTo_node found, none, zero]
      rfl
    · rw [pathTo_child found parent below, List.length_append, ← ih p below present, deeper]
      rfl

theorem sound_seed (direction : Direction) (name : Text) :
    Sound index { direction, nodes := #[{ name, record := index.find? name }] } := by
  refine ⟨⟨_, rfl, rfl⟩, fun i node found => ?_, fun i node found => ?_, fun i node found j => ?_,
    fun i node found => ?_⟩
  all_goals obtain ⟨rfl, rfl⟩ := node?_single found
  · rfl
  · exact .inl ⟨rfl, rfl⟩
  · refine ⟨nofun, ?_⟩
    rintro ⟨child, present, parent⟩
    obtain ⟨_, rfl⟩ := node?_single present
    contradiction
  · exact .nil

end CallTree

namespace TreeBuilder
variable {b : TreeBuilder} {t : CallTree} {parent i j : Nat} {names : List Text}
  {node : CallTree.Node}

/-- Who hangs below whom once children have been added. -/
theorem addChildren_parents (inside : parent < t.size) :
    (∃ child, (b.addChildren t parent names).node? j = some child ∧ child.parent = some i) ↔
      (∃ child, t.node? j = some child ∧ child.parent = some i) ∨
        i = parent ∧ t.size ≤ j ∧ j < t.size + (b.fitting t names).length := by
  constructor
  · rintro ⟨child, found, hangs⟩
    rcases addChildren_cases found with ⟨old, present, rfl⟩ | ⟨k, name, rfl, listed, rfl⟩
    · refine .inl ⟨old, present, ?_⟩
      split at hangs <;> exact hangs
    · have bound := (List.getElem?_eq_some_iff.mp listed).1
      exact .inr ⟨(Option.some.inj hangs).symm, by omega⟩
  · rintro (⟨child, present, hangs⟩ | ⟨rfl, above, below⟩)
    · obtain ⟨_, found⟩ := addChildren_extends j child present
      exact ⟨_, found, hangs⟩
    · obtain ⟨k, rfl⟩ := Nat.exists_eq_add_of_le above
      have bound : k < (b.fitting t names).length := by omega
      exact ⟨_, addChildren_child bound, rfl⟩

theorem fitting_ordered (ordered : names.Pairwise (· < ·)) : (b.fitting t names).Pairwise (· < ·) :=
  ordered.sublist (List.take_sublist _ _)

/-- Children may be added to a node without any. -/
theorem sound_addChildren (sound : t.Sound b.index) (found : t.node? parent = some node)
    (childless : node.children = []) (ordered : names.Pairwise (· < ·)) :
    (b.addChildren t parent names).Sound b.index := by
  have inside := CallTree.node?_lt found
  have grown : (b.addChildren t parent names).Extends t := addChildren_extends
  have alone (j : Nat) : ¬∃ child, t.node? j = some child ∧ child.parent = some parent := by
    rw [← sound.members parent node found j, childless]
    exact List.not_mem_nil
  constructor
  case root =>
    obtain ⟨root, here, zero⟩ := sound.root
    obtain ⟨_, here⟩ := grown 0 root here
    exact ⟨_, here, zero⟩
  case records =>
    intro i other present
    rcases addChildren_cases present with ⟨old, here, rfl⟩ | ⟨k, name, rfl, listed, rfl⟩
    · have record := sound.records i old here
      split <;> exact record
    · rfl
  case parents =>
    intro i other present
    rcases addChildren_cases present with ⟨old, here, rfl⟩ | ⟨k, name, rfl, listed, rfl⟩
    · rcases sound.parents i old here with ⟨rfl, none⟩ | ⟨p, above, hangs, below, there, deeper⟩
      · refine .inl ⟨rfl, ?_⟩
        split <;> exact none
      · obtain ⟨_, there⟩ := grown p above there
        refine .inr ⟨p, _, ?_, below, there, ?_⟩
        · split <;> exact hangs
        · split <;> exact deeper
    · obtain ⟨_, there⟩ := grown parent node found
      exact .inr ⟨parent, _, rfl, by omega, there, by simp [child, found]⟩
  case members =>
    intro i other present j
    rw [addChildren_parents inside]
    rcases addChildren_cases present with ⟨old, here, rfl⟩ | ⟨k, name, rfl, listed, rfl⟩
    · by_cases same : parent = i
      · subst same
        simp [alone j, List.mem_range'_1]
      · rw [if_neg same, sound.members i old here j]
        simp [Ne.symm same]
    · -- Nothing hangs below a node that has only just been added.
      refine ⟨nofun, ?_⟩
      rintro (⟨other, there, hangs⟩ | ⟨same, _⟩)
      · rcases sound.parents j other there with ⟨_, none⟩ | ⟨p, _, hung, below, _, _⟩
        · rw [none] at hangs
          contradiction
        · have := CallTree.node?_lt there
          have := Option.some.inj (hung.symm.trans hangs)
          omega
      · omega
  case ordered =>
    intro i other present
    rcases addChildren_cases present with ⟨old, here, rfl⟩ | ⟨k, name, rfl, listed, rfl⟩
    · split
      · refine List.pairwise_iff_getElem.mpr (fun first second firstBound secondBound below => ?_)
        simp only [List.length_range'] at firstBound secondBound
        simp only [List.getElem_range', Nat.one_mul]
        exact ⟨_, _, addChildren_child firstBound, addChildren_child secondBound,
          List.pairwise_iff_getElem.mp (fitting_ordered ordered) first second firstBound
            secondBound below⟩
      · exact (sound.ordered i old here).imp grown.before
    · exact .nil

end TreeBuilder
end CodeAudit
