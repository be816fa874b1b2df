import CodeAudit.Proofs.CallTree.Arena
import Mathlib.Data.List.Nodup

/-! The order in which a tree is read: a node, then everything below its children, one child after
the other. Children stand behind their parents in the arena, so that reading ends, and from the root
it comes by every node just once. -/
namespace CodeAudit
namespace CallTree

def preorderFrom (t : CallTree) (i : Nat) : List Nat :=
  if inside : i < t.nodes.size then
    i :: t.nodes[i].children.flatMap fun c => if i < c then t.preorderFrom c else []
  else []
termination_by t.nodes.size - i

def preorder (t : CallTree) : List Nat := t.preorderFrom 0

/-- The nodes at or below one, in the order in which they are read. -/
def nodesFrom (t : CallTree) (i : Nat) : List Node := (t.preorderFrom i).filterMap t.node?

variable {index : FunctionIndex} {t : CallTree} {i j c p : Nat} {node child : Node}

theorem Sound.listed_child (sound : t.Sound index) (found : t.node? i = some node)
    (listed : c ∈ node.children) :
    i < c ∧ ∃ child, t.node? c = some child ∧ child.parent = some i ∧
      child.depth = node.depth + 1 := by
  obtain ⟨child, here, parent⟩ := (sound.members i node found c).mp listed
  rcases sound.parents c child here with ⟨_, none⟩ | ⟨p, above, hangs, below, there, deeper⟩
  · rw [none] at parent
    contradiction
  · obtain rfl := Option.some.inj (hangs.symm.trans parent)
    obtain rfl := Option.some.inj (there.symm.trans found)
    exact ⟨below, child, here, parent, deeper⟩

/-- What adds nothing may be left out beforehand. -/
theorem flatMap_filter {α β : Type} {keep : α → Bool} {f : α → List β} (l : List α)
    (none : ∀ x ∈ l, keep x = false → f x = []) : (l.filter keep).flatMap f = l.flatMap f := by
  induction l with
  | nil => rfl
  | cons x rest ih =>
    have later := ih (fun y listed => none y (List.mem_cons_of_mem _ listed))
    cases kept : keep x with
    | true => rw [List.filter_cons_of_pos kept, List.flatMap_cons, List.flatMap_cons, later]
    | false =>
      rw [List.filter_cons_of_neg (by simp [kept]), List.flatMap_cons,
        none x List.mem_cons_self kept, List.nil_append,
        later]

/-- What holds of a node as soon as it holds of its children holds of every node. -/
theorem Sound.descend (sound : t.Sound index) {motive : Nat → Node → Prop}
    (step : ∀ i node, t.node? i = some node →
      (∀ c ∈ node.children, ∀ child, t.node? c = some child → motive c child) → motive i node)
    (found : t.node? i = some node) : motive i node := by
  -- The children stand nearer to the end of the arena.
  induction left : t.size - i using Nat.strongRecOn generalizing i node with
  | ind left ih =>
    apply step i node found
    intro c listed child here
    have behind := (sound.listed_child found listed).1
    have inside := node?_lt found
    exact ih (t.size - c) (by omega) here rfl

theorem Sound.preorderFrom_node (sound : t.Sound index) (found : t.node? i = some node) :
    t.preorderFrom i = i :: node.children.flatMap t.preorderFrom := by
  obtain ⟨inside, rfl⟩ := Array.getElem?_eq_some_iff.mp found
  rw [preorderFrom, dif_pos inside]
  congr 1
  apply List.flatMap_congr
  intro c listed
  exact if_pos (sound.listed_child found listed).1

theorem Sound.nodesFrom_node (sound : t.Sound index) (found : t.node? i = some node) :
    t.nodesFrom i = node :: node.children.flatMap t.nodesFrom := by
  unfold nodesFrom
  rw [sound.preorderFrom_node found, List.filterMap_cons_some found, List.filterMap_flatMap]

theorem Sound.mem_preorderFrom (sound : t.Sound index) (found : t.node? i = some node) :
    j ∈ t.preorderFrom i ↔ j = i ∨ ∃ c ∈ node.children, j ∈ t.preorderFrom c := by
  rw [sound.preorderFrom_node found, List.mem_cons, List.mem_flatMap]

/-- What is read from a node on, itself apart, stands behind it and lies deeper. -/
theorem Sound.behind (sound : t.Sound index) (found : t.node? i = some node)
    (read : j ∈ t.preorderFrom i) :
    ∃ other, t.node? j = some other ∧ (j = i ∨ i < j ∧ node.depth < other.depth) := by
  revert read
  apply sound.descend (motive := fun i node => j ∈ t.preorderFrom i →
    ∃ other, t.node? j = some other ∧ (j = i ∨ i < j ∧ node.depth < other.depth)) _ found
  intro i node found ih read
  rcases (sound.mem_preorderFrom found).mp read with rfl | ⟨c, listed, further⟩
  · exact ⟨node, found, .inl rfl⟩
  · obtain ⟨below, child, here, _, deeper⟩ := sound.listed_child found listed
    obtain ⟨other, there, rfl | ⟨later, deep⟩⟩ := ih c listed child here further
    · obtain rfl := Option.some.inj (here.symm.trans there)
      exact ⟨child, here, .inr (by omega)⟩
    · exact ⟨other, there, .inr (by omega)⟩

theorem Sound.nodesFrom_depth {other : Node} (sound : t.Sound index) (found : t.node? i = some node)
    (read : other ∈ t.nodesFrom i) :
    node.depth ≤ other.depth := by
  obtain ⟨j, read, here⟩ := List.mem_filterMap.mp read
  obtain ⟨_, there, rfl | ⟨_, deeper⟩⟩ := sound.behind found read
  · rw [found] at here
    exact Nat.le_of_eq (congrArg Node.depth (Option.some.inj here))
  · rw [there] at here
    obtain rfl := Option.some.inj here
    exact Nat.le_of_lt deeper

theorem Sound.self_mem (sound : t.Sound index) (found : t.node? i = some node) :
    i ∈ t.preorderFrom i :=
  (sound.mem_preorderFrom found).mpr (.inl rfl)

/-- Reading gets to the parent before it gets to the child. -/
theorem Sound.parent_read (sound : t.Sound index) (found : t.node? i = some node)
    (read : j ∈ t.preorderFrom i) (there : t.node? j = some child) (hangs : child.parent = some p) :
    j = i ∨ p ∈ t.preorderFrom i := by
  revert read
  apply sound.descend (motive := fun i _ => j ∈ t.preorderFrom i →
    j = i ∨ p ∈ t.preorderFrom i) _ found
  intro i node found ih read
  rcases (sound.mem_preorderFrom found).mp read with same | ⟨c, listed, further⟩
  · exact .inl same
  · obtain ⟨_, other, here, parent, _⟩ := sound.listed_child found listed
    refine .inr ?_
    rcases ih c listed other here further with rfl | above
    · obtain rfl := Option.some.inj (there.symm.trans here)
      obtain rfl := Option.some.inj (hangs.symm.trans parent)
      exact sound.self_mem found
    · exact (sound.mem_preorderFrom found).mpr (.inr ⟨c, listed, above⟩)

theorem Sound.child_read (sound : t.Sound index) (found : t.node? i = some node)
    (read : p ∈ t.preorderFrom i) (there : t.node? j = some child) (hangs : child.parent = some p) :
    j ∈ t.preorderFrom i := by
  revert read
  apply sound.descend (motive := fun i _ => p ∈ t.preorderFrom i → j ∈ t.preorderFrom i) _ found
  intro i node found ih read
  rcases (sound.mem_preorderFrom found).mp read with rfl | ⟨c, listed, further⟩
  · have listed : j ∈ node.children := (sound.members p node found j).mpr ⟨child, there, hangs⟩
    exact (sound.mem_preorderFrom found).mpr (.inr ⟨j, listed, sound.self_mem there⟩)
  · obtain ⟨_, other, here, _⟩ := sound.listed_child found listed
    exact (sound.mem_preorderFrom found).mpr (.inr ⟨c, listed, ih c listed other here further⟩)

/-- Nothing hangs below two children of one node. -/
theorem Sound.apart {d : Nat} (sound : t.Sound index) (found : t.node? i = some node)
    (first : c ∈ node.children) (second : d ∈ node.children) (here : j ∈ t.preorderFrom c)
    (there : j ∈ t.preorderFrom d) :
    c = d := by
  obtain ⟨aboveFirst, child, childFound, childHangs, _⟩ := sound.listed_child found first
  obtain ⟨aboveSecond, sibling, siblingFound, siblingHangs, _⟩ := sound.listed_child found second
  induction j using Nat.strongRecOn with
  | ind j ih =>
    obtain ⟨other, present, _⟩ := sound.behind childFound here
    rcases sound.parents j other present with ⟨rfl, _⟩ | ⟨p, _, hangs, below, _, _⟩
    · obtain ⟨_, _, same | ⟨before, _⟩⟩ := sound.behind childFound here <;> omega
    · rcases sound.parent_read childFound here present hangs with rfl | up
      · obtain rfl := Option.some.inj (present.symm.trans childFound)
        obtain rfl := Option.some.inj (hangs.symm.trans childHangs)
        rcases sound.parent_read siblingFound there present hangs with same | up
        · exact same
        · obtain ⟨_, _, same | ⟨before, _⟩⟩ := sound.behind siblingFound up <;> omega
      · rcases sound.parent_read siblingFound there present hangs with rfl | also
        · obtain rfl := Option.some.inj (present.symm.trans siblingFound)
          obtain rfl := Option.some.inj (hangs.symm.trans siblingHangs)
          obtain ⟨_, _, same | ⟨before, _⟩⟩ := sound.behind childFound up <;> omega
        · exact ih p below up also

theorem Sound.children_nodup (sound : t.Sound index) (found : t.node? i = some node) :
    node.children.Nodup := by
  apply (sound.ordered i node found).imp
  rintro c d ⟨first, second, here, there, below⟩ rfl
  obtain rfl := Option.some.inj (here.symm.trans there)
  exact List.lt_irrefl _ below

theorem Sound.preorderFrom_nodup (sound : t.Sound index) (found : t.node? i = some node) :
    (t.preorderFrom i).Nodup := by
  apply sound.descend (motive := fun i _ => (t.preorderFrom i).Nodup) _ found
  intro i node found ih
  rw [sound.preorderFrom_node found, List.nodup_cons]
  constructor
  · intro again
    obtain ⟨c, listed, read⟩ := List.mem_flatMap.mp again
    obtain ⟨below, child, here, _⟩ := sound.listed_child found listed
    obtain ⟨_, _, same | ⟨before, _⟩⟩ := sound.behind here read <;> omega
  · apply List.nodup_flatMap.mpr
    constructor
    · intro c listed
      obtain ⟨_, child, here, _⟩ := sound.listed_child found listed
      exact ih c listed child here
    · refine (sound.children_nodup found).imp_of_mem ?_
      intro c d first second different j here there
      exact different (sound.apart found first second here there)

/-- Every node is read from the root, and just once. -/
theorem Sound.preorder_perm (sound : t.Sound index) : t.preorder.Perm (List.range t.size) := by
  obtain ⟨root, top, _⟩ := sound.root
  apply (List.perm_ext_iff_of_nodup (sound.preorderFrom_nodup top) List.nodup_range).mpr
  intro j
  rw [List.mem_range]
  constructor
  · intro read
    obtain ⟨_, present, _⟩ := sound.behind top read
    exact node?_lt present
  · intro inside
    induction j using Nat.strongRecOn with
    | ind j ih =>
      obtain ⟨node, found⟩ := node?_of_lt inside
      rcases sound.parents j node found with ⟨rfl, _⟩ | ⟨p, _, hangs, below, _, _⟩
      · exact sound.self_mem top
      · exact sound.child_read top (ih p below (Nat.lt_trans below inside)) found hangs

theorem Sound.nodesFrom_perm (sound : t.Sound index) : (t.nodesFrom 0).Perm t.nodes.toList := by
  have all := calc
    (List.range t.size).filterMap t.node? = ((List.range t.size).map t.node?).filterMap id := by
      rw [List.filterMap_map]
      rfl
    _ = t.nodes.toList := by
      rw [nodes_range, List.filterMap_map]
      exact List.filterMap_some
  rw [← all]
  exact sound.preorder_perm.filterMap _

end CallTree
end CodeAudit
