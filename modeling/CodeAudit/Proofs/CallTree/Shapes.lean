import CodeAudit.Proofs.CallTree.Preorder

/-! The shape of a tree: how many children each node has, and what hangs below them. Reading the
depths of the nodes, each before everything below it, is enough to know the shape. -/
namespace CodeAudit
namespace CallTree

inductive Shape where
  | node (below : List Shape)
deriving Repr

namespace Shape

mutual

/-- How deep the nodes lie in the order in which they are read, the first of them at a given
depth. -/
def depths (d : Nat) : Shape → List Nat
  | .node below => d :: depthsBelow (d + 1) below

def depthsBelow (d : Nat) : List Shape → List Nat
  | [] => []
  | s :: rest => s.depths d ++ depthsBelow d rest

end

theorem depthsBelow_eq (d : Nat) (below : List Shape) :
    depthsBelow d below = below.flatMap (depths d) := by
  induction below with
  | nil => rfl
  | cons s below ih => rw [depthsBelow, ih, List.flatMap_cons]

theorem depths_cons (d : Nat) (s : Shape) : ∃ later, s.depths d = d :: later := by
  cases s with
  | node below => exact ⟨_, rfl⟩

theorem head_depthsBelow {d : Nat} {below : List Shape} {rest : List Nat}
    (ends : ∀ n ∈ rest.head?, n < d) :
    ∀ n ∈ (depthsBelow d below ++ rest).head?, n ≤ d := by
  cases below with
  | nil => exact fun n first => Nat.le_of_lt (ends n first)
  | cons s below =>
    obtain ⟨later, starts⟩ := depths_cons d s
    rw [depthsBelow, starts]
    intro n first
    exact Nat.le_of_eq (Option.some.inj first).symm

mutual

/-- A shape ends where the depths are no longer below its own, so what follows may be read along. -/
theorem depths_append_inj {s s' : Shape} {d : Nat} {rest rest' : List Nat}
    (ends : ∀ n ∈ rest.head?, n ≤ d) (ends' : ∀ n ∈ rest'.head?, n ≤ d)
    (same : s.depths d ++ rest = s'.depths d ++ rest') :
    s = s' ∧ rest = rest' := by
  match s, s' with
  | .node below, .node below' =>
    obtain ⟨_, later⟩ := List.cons.inj same
    obtain ⟨alike, after⟩ :=
      depthsBelow_append_inj (fun n first => Nat.lt_succ_of_le (ends n first))
      (fun n first => Nat.lt_succ_of_le (ends' n first)) later
    exact ⟨congrArg node alike, after⟩

theorem depthsBelow_append_inj {below below' : List Shape} {d : Nat} {rest rest' : List Nat}
    (ends : ∀ n ∈ rest.head?, n < d) (ends' : ∀ n ∈ rest'.head?, n < d)
    (same : depthsBelow d below ++ rest = depthsBelow d below' ++ rest') :
    below = below' ∧ rest = rest' := by
  match below, below' with
  | [], [] => exact ⟨rfl, same⟩
  | [], s' :: below' =>
    obtain ⟨later, starts⟩ := depths_cons d s'
    rw [depthsBelow, depthsBelow, starts] at same
    exact absurd (ends d (by rw [← List.nil_append rest, same]; rfl)) (Nat.lt_irrefl d)
  | s :: below, [] =>
    obtain ⟨later, starts⟩ := depths_cons d s
    rw [depthsBelow, depthsBelow, starts] at same
    exact absurd (ends' d (by rw [← List.nil_append rest', ← same]; rfl)) (Nat.lt_irrefl d)
  | s :: below, s' :: below' =>
    rw [depthsBelow, depthsBelow, List.append_assoc, List.append_assoc] at same
    obtain ⟨rfl, others⟩ := depths_append_inj (head_depthsBelow ends) (head_depthsBelow ends') same
    obtain ⟨rfl, after⟩ := depthsBelow_append_inj ends ends' others
    exact ⟨rfl, after⟩

end

theorem depths_inj {s s' : Shape} {d : Nat} (same : s.depths d = s'.depths d) : s = s' := by
  have whole : s.depths d ++ [] = s'.depths d ++ [] := by rw [same]
  exact (depths_append_inj (by simp) (by simp) whole).1

end Shape

def shapeFrom (t : CallTree) (i : Nat) : Shape :=
  if inside : i < t.nodes.size then
    .node (t.nodes[i].children.map fun c => if i < c then t.shapeFrom c else .node [])
  else .node []
termination_by t.nodes.size - i

def shape (t : CallTree) : Shape := t.shapeFrom 0

variable {index : FunctionIndex} {t : CallTree} {i : Nat} {node : Node}

theorem Sound.shapeFrom_node (sound : t.Sound index) (found : t.node? i = some node) :
    t.shapeFrom i = .node (node.children.map t.shapeFrom) := by
  obtain ⟨inside, rfl⟩ := Array.getElem?_eq_some_iff.mp found
  rw [shapeFrom, dif_pos inside]
  congr 1
  apply List.map_congr_left
  intro c listed
  exact if_pos (sound.listed_child found listed).1

theorem Sound.depths_shapeFrom (sound : t.Sound index) (found : t.node? i = some node) :
    (t.shapeFrom i).depths node.depth = (t.nodesFrom i).map Node.depth := by
  apply sound.descend (motive := fun i node =>
    (t.shapeFrom i).depths node.depth = (t.nodesFrom i).map Node.depth) _ found
  intro i node found ih
  rw [sound.shapeFrom_node found, sound.nodesFrom_node found, List.map_cons, Shape.depths,
    Shape.depthsBelow_eq,
    List.flatMap_map, List.map_flatMap]
  congr 1
  apply List.flatMap_congr
  intro c listed
  obtain ⟨_, child, here, _, deeper⟩ := sound.listed_child found listed
  rw [← deeper]
  exact ih c listed child here

theorem Sound.depths_shape (sound : t.Sound index) :
    t.shape.depths 0 = (t.nodesFrom 0).map Node.depth := by
  obtain ⟨root, top, shallow⟩ := sound.root
  rw [shape, ← sound.depths_shapeFrom top, shallow]

end CallTree
end CodeAudit
