import CodeAudit.Proofs.CallTree.Arrangement
import CodeAudit.Proofs.CallTree.Excerpts
import CodeAudit.Proofs.CallTree.Outlines

/-! Walks over the arena of a tree. Those who read a tree look up one waiting place after another
and rely on what the arena says of itself: a place that is no node would lead them astray, and a
child in front of its parent round in circles. In the arena of a tree every walk ends, up to the
root as well as down from it. -/
namespace CodeAudit
namespace CallTree

/-- The foremost of the waiting entries is looked up; what follows it comes to wait in front of the
others. -/
structure Walk (ε α : Type) where
  place : ε → Nat
  output : ε → Node → List α
  followers : ε → Node → List ε

namespace Walk
variable {ε α : Type}

inductive Outcome (α : Type) where
  /-- Nothing waits any more. -/
  | ended (visited : List Nat) (written : List α)
  /-- The place that has been looked up is no node. -/
  | astray (place : Nat)
  | unfinished
deriving DecidableEq, Repr

def Outcome.after (place : Nat) (written : List α) : Outcome α → Outcome α
  | ended visited later => ended (place :: visited) (written ++ later)
  | astray place => astray place
  | unfinished => unfinished

/-- What comes of a walk within so many steps. -/
def run (w : Walk ε α) (t : CallTree) : Nat → List ε → Outcome α
  | _, [] => .ended [] []
  | 0, _ :: _ => .unfinished
  | steps + 1, entry :: rest =>
      match t.node? (w.place entry) with
      | none => .astray (w.place entry)
      | some node => (w.run t steps (w.followers entry node ++ rest)).after (w.place entry)
          (w.output entry node)

inductive Ends (w : Walk ε α) (t : CallTree) : List ε → List Nat → List α → Prop where
  | nil : Ends w t [] [] []
  | cons {entry : ε} {node : Node} {rest : List ε} {visited : List Nat} {written : List α} :
      t.node? (w.place entry) = some node →
        Ends w t (w.followers entry node ++ rest) visited written →
      Ends w t (entry :: rest) (w.place entry :: visited) (w.output entry node ++ written)

variable {w : Walk ε α} {t : CallTree} {entry : ε} {waiting front rest entries : List ε}
  {visited later : List Nat} {written more : List α} {steps : Nat}

theorem Ends.run (ends : w.Ends t waiting visited written) (enough : visited.length ≤ steps) :
    w.run t steps waiting = .ended visited written := by
  induction ends generalizing steps with
  | nil => cases steps <;> rfl
  | cons found _ ih =>
    cases steps with
    | zero => cases enough
    | succ steps =>
      rw [Walk.run, found]
      simp only [ih (Nat.le_of_succ_le_succ enough)]
      rfl

theorem Ends.append (first : w.Ends t front visited written) (second : w.Ends t rest later more) :
    w.Ends t (front ++ rest) (visited ++ later) (written ++ more) := by
  induction first with
  | nil => exact second
  | cons found _ ih =>
    rw [List.append_assoc] at ih
    rw [List.append_assoc (w.output _ _)]
    exact .cons found ih

theorem Ends.flatMap {visits : ε → List Nat} {writes : ε → List α}
    (each : ∀ entry ∈ entries, w.Ends t [entry] (visits entry) (writes entry)) :
    w.Ends t entries (entries.flatMap visits) (entries.flatMap writes) := by
  induction entries with
  | nil => exact .nil
  | cons entry rest ih =>
    obtain ⟨first, others⟩ := List.forall_mem_cons.mp each
    exact first.append (ih others)

end Walk

variable {index : FunctionIndex} {t : CallTree} {i : Nat} {node : Node}

/-! ### Down from a node -/

/-- A walk that goes on to children only ends, with what the tree has below the entry. -/
theorem Sound.walk_ends {ε α : Type} {entry : ε} (sound : t.Sound index) (w : Walk ε α)
    (visits : ε → List Nat) (writes : ε → List α)
    (down : ∀ entry node, t.node? (w.place entry) = some node →
      ∀ next ∈ w.followers entry node, w.place next ∈ node.children)
    (visiting : ∀ entry node, t.node? (w.place entry) = some node →
      visits entry = w.place entry :: (w.followers entry node).flatMap visits)
    (writing : ∀ entry node, t.node? (w.place entry) = some node →
      writes entry = w.output entry node ++ (w.followers entry node).flatMap writes)
    (found : t.node? (w.place entry) = some node) :
    w.Ends t [entry] (visits entry) (writes entry) := by
  refine sound.descend (motive := fun i _ => ∀ entry, w.place entry = i →
    w.Ends t [entry] (visits entry) (writes entry))
    ?_ found entry rfl
  rintro _ node found ih entry rfl
  rw [visiting entry node found, writing entry node found]
  apply Walk.Ends.cons found
  rw [List.append_nil]
  apply Walk.Ends.flatMap
  intro next follows
  have listed := down entry node found next follows
  obtain ⟨_, child, here, _⟩ := sound.listed_child found listed
  exact ih _ listed child here next rfl

/-- A node that is to be drawn, with what stands left of its siblings. -/
structure Branch where
  place : Nat
  margin : Text
  last : Bool

/-- What stands left of the children. -/
def Branch.inner (branch : Branch) (node : Node) : Text :=
  if node.depth = 0 then branch.margin else branch.margin ++ stroke false branch.last

def Branch.next (branch : Branch) (node : Node) : List Branch :=
  node.spread (fun last c => [{ place := c, margin := branch.inner node, last }])

theorem Branch.flatMap_next {α : Type} (branch : Branch) (node : Node) (f : Branch → List α) :
    (branch.next node).flatMap f = node.spread (fun last c => f ⟨c, branch.inner node, last⟩) := by
  rw [Branch.next, Node.spread_flatMap]
  simp only [List.flatMap_singleton]

theorem Branch.mem_next {branch other : Branch} (follows : other ∈ branch.next node) :
    other.place ∈ node.children := by
  obtain ⟨c, listed, last, here⟩ := Node.mem_spread follows
  obtain rfl := List.mem_singleton.mp here
  exact listed

def drawing : Walk Branch UInt8 where
  place := Branch.place
  output branch node :=
    (if node.depth = 0 then [] else branch.margin ++ stroke true branch.last) ++ node.label ++
      [Text.newline]
  followers := Branch.next

/-- What is drawn is the outline, and every node below the first is visited in the order of
reading. -/
theorem Sound.drawing_ends {margin : Text} {last : Bool} (sound : t.Sound index)
    (found : t.node? i = some node) :
    drawing.Ends t [⟨i, margin, last⟩] (t.preorderFrom i) (t.outlineFrom margin last i) := by
  refine sound.walk_ends drawing (fun branch => t.preorderFrom branch.place)
    (fun branch => t.outlineFrom branch.margin branch.last branch.place) ?_ ?_ ?_ found
  · intro branch node _ next follows
    exact Branch.mem_next follows
  · intro branch node found
    have below : (branch.next node).flatMap (fun other => t.preorderFrom other.place) =
        node.children.flatMap t.preorderFrom := by
      rw [Branch.flatMap_next]
      exact Node.spread_const t.preorderFrom
    exact (sound.preorderFrom_node found).trans (congrArg _ below.symm)
  · intro branch node found
    have below : (branch.next node).flatMap
      (fun other => t.outlineFrom other.margin other.last other.place) =
        node.spread (t.outlineFrom (branch.inner node)) := Branch.flatMap_next branch node _
    exact (sound.outlineFrom_node found).trans (congrArg _ below.symm)

def extraction (maxDepth : Nat) : Walk Nat (Nat × PlacedRecord) where
  place i := i
  output _ node := if maxDepth < node.depth then [] else node.entry?.toList
  followers _ node := if node.depth < maxDepth then node.children else []

/-- A node and those below it that lie within a depth. -/
def within (t : CallTree) (maxDepth i : Nat) : List Nat :=
  (t.preorderFrom i).filter (fun j => j = i ∨ (t.node? j).any (fun node => node.depth ≤ maxDepth))

theorem Sound.within_node {maxDepth : Nat} (sound : t.Sound index) (found : t.node? i = some node) :
    t.within maxDepth i =
      i :: (if node.depth < maxDepth then node.children else []).flatMap (t.within maxDepth) := by
  rw [within, sound.preorderFrom_node found, List.filter_cons_of_pos (by simp), List.filter_flatMap]
  congr 1
  split
  next inside =>
    apply List.flatMap_congr
    intro c listed
    obtain ⟨below, child, here, _, deeper⟩ := sound.listed_child found listed
    apply List.filter_congr
    intro j read
    obtain ⟨other, there, rfl | ⟨behind, _⟩⟩ := sound.behind here read
    · simp [here, deeper, Nat.succ_le_of_lt inside]
    · have apart : j ≠ i := by omega
      have further : j ≠ c := by omega
      simp [apart, further]
  next last =>
    apply List.flatMap_eq_nil_iff.mpr
    intro c listed
    obtain ⟨below, child, here, _, deeper⟩ := sound.listed_child found listed
    apply List.filter_eq_nil_iff.mpr
    intro j read
    obtain ⟨other, there, place⟩ := sound.behind here read
    have apart : j ≠ i := by omega
    have deep : maxDepth < other.depth := by
      rcases place with rfl | ⟨_, deeper⟩
      · obtain rfl := Option.some.inj (here.symm.trans there)
        omega
      · omega
    simp [apart, there, deep]

theorem Sound.extraction_ends {maxDepth : Nat} (sound : t.Sound index)
    (found : t.node? i = some node) :
    (extraction maxDepth).Ends t [i] (t.within maxDepth i) (t.resolvedFrom maxDepth i) := by
  refine sound.walk_ends (extraction maxDepth) (t.within maxDepth) (t.resolvedFrom maxDepth) ?_
    ?_ ?_ found
  · intro i node _ next follows
    simp only [extraction] at follows
    split at follows
    · exact follows
    · cases follows
  · intro i node found
    exact sound.within_node found
  · intro i node (found : t.node? i = some node)
    obtain ⟨inside, rfl⟩ := Array.getElem?_eq_some_iff.mp found
    rw [resolvedFrom, dif_pos inside]
    simp only [extraction]
    by_cases deep : maxDepth < t.nodes[i].depth
    · have last : ¬t.nodes[i].depth < maxDepth := by omega
      simp [deep, last]
    · simp only [if_neg deep]
      congr 1
      split
      · apply List.flatMap_congr
        intro c listed
        exact if_pos (sound.listed_child found listed).1
      · rfl

/-! ### Up to the root -/

def climb : Walk Nat Text where
  place i := i
  output _ node := [node.name]
  followers _ node := node.parent.toList

theorem ancestry_root (found : t.node? i = some node) (top : node.parent = none) :
    t.ancestry i = [i] := by
  have here : t.nodes[i]? = some node := found
  rw [ancestry, here]
  simp only [top]

theorem ancestry_child {p : Nat} (found : t.node? i = some node) (parent : node.parent = some p)
    (below : p < i) :
    t.ancestry i = t.ancestry p ++ [i] := by
  have here : t.nodes[i]? = some node := found
  rw [ancestry, here]
  simp only [parent, if_pos below]

theorem ancestry_length (t : CallTree) (i : Nat) : (t.ancestry i).length ≤ i + 1 := by
  fun_induction t.ancestry i with
  | case1 => exact Nat.zero_le _
  | case2 => simp
  | case3 i node _ p _ below ih =>
    rw [List.length_append, List.length_singleton]
    omega
  | case4 => simp

/-- Parents stand in front, so a climb comes to the root, and it writes the way down backwards. -/
theorem Sound.climb_ends (sound : t.Sound index) (found : t.node? i = some node) :
    climb.Ends t [i] (t.ancestry i).reverse (t.pathTo i).reverse := by
  induction i using Nat.strongRecOn generalizing node with
  | ind i ih =>
    rcases sound.parents i node found with ⟨rfl, top⟩ | ⟨p, above, parent, below, there, _⟩
    · have ending : climb.Ends t (climb.followers 0 node ++ []) [] [] := by
        simp only [climb, top]
        exact .nil
      rw [ancestry_root found top, pathTo_node found, top]
      exact .cons found ending
    · have further : climb.Ends t (climb.followers i node ++ []) (t.ancestry p).reverse
          (t.pathTo p).reverse := by
        simp only [climb, parent]
        exact ih p below there
      rw [ancestry_child found parent below, pathTo_child found parent below, List.reverse_concat,
        List.reverse_concat]
      exact .cons found further

-- Where a parent is no node a climb goes astray.
example : climb.run ⟨.upstream, #[{ name := [], record := none, parent := some 7 }], false⟩ 5 [0] =
    .astray 7 := rfl

end CallTree

namespace TreeBuilder

/-- A tree under any cap is well arranged, and all who read it come to an end without looking for a
node outside it. The climb from a node takes the way to it backwards, drawing comes by every node
just once, and extracting by those within the depth. -/
theorem arena_well_formed (b : TreeBuilder) (built : b.graph.Built) (root : Text)
    (direction : Direction) (excluded : List Text) {tree : CallTree}
    (made : (b.build root direction excluded).1 = some tree) :
    tree.Arranged root ∧
    ∀ steps ≥ tree.size,
      (∀ i < tree.size, CallTree.climb.run tree steps [i] =
        .ended (tree.ancestry i).reverse (tree.pathTo i).reverse) ∧
      CallTree.drawing.run tree steps [{ place := 0, margin := [], last := true }] =
        .ended tree.preorder tree.outline ∧
      tree.preorder.Perm (List.range tree.size) ∧
      ∀ maxDepth, ∃ entries,
        (CallTree.extraction maxDepth).run tree steps [0] =
          .ended (tree.within maxDepth 0) entries ∧
        tree.excerpt maxDepth =
          { records := entries.map Prod.snd, depthCounts := DepthCounts.tally [] entries } := by
  have sound := build_sound built made
  obtain ⟨top, first, _⟩ := sound.root
  have all : tree.preorder.length = tree.size := by
    rw [sound.preorder_perm.length_eq, List.length_range]
  refine ⟨build_arranged built made, ?_⟩
  intro steps enough
  refine ⟨?_, ?_, sound.preorder_perm, ?_⟩
  · intro i inside
    obtain ⟨node, found⟩ := CallTree.node?_of_lt inside
    apply (sound.climb_ends found).run
    have := tree.ancestry_length i
    rw [List.length_reverse]
    omega
  · apply (sound.drawing_ends first).run
    exact all.trans_le enough
  · intro maxDepth
    refine ⟨tree.resolvedFrom maxDepth 0, ?_, rfl⟩
    apply (sound.extraction_ends first).run
    have fewer : (tree.within maxDepth 0).length ≤ tree.preorder.length := List.length_filter_le _ _
    omega

/-- There is no room left for the rate, which the tax calls. -/
theorem arena_well_formed_ordering : ∃ tree,
    (build ⟨ordering, warehouse, 4⟩ (utf8 "order") .downstream []).1 = some tree ∧
      tree.truncated = true ∧
    tree.nodes.toList.map CallTree.Node.children = [[1, 2], [3], [], []] ∧
      tree.Arranged (utf8 "order") ∧
    CallTree.climb.run tree 4 [3] = .ended [3, 1, 0] [utf8 "tax", utf8 "price", utf8 "order"] ∧
    CallTree.drawing.run tree 4 [⟨0, [], true⟩] = .ended [0, 1, 3, 2] tree.outline ∧
    tree.preorder.Perm [0, 1, 2, 3] ∧
    ∃ entries, (CallTree.extraction 1).run tree 4 [0] = .ended [0, 1, 2] entries := by
  have seen : (build ⟨ordering, warehouse, 4⟩ (utf8 "order") .downstream []).1.map (fun tree =>
      (tree.truncated, tree.size, tree.nodes.toList.map CallTree.Node.children, tree.ancestry 3,
        tree.pathTo 3,
        tree.preorder, tree.within 1 0)) =
      some (true, 4, [[1, 2], [3], [], []], [0, 1, 3], [utf8 "order", utf8 "price", utf8 "tax"],
        [0, 1, 3, 2],
        [0, 1, 2]) := by cbv
  obtain ⟨tree, made, same⟩ := Option.map_eq_some_iff.mp seen
  simp only [Prod.mk.injEq] at same
  obtain ⟨short, size, children, way, names, order, shallow⟩ := same
  have built : ordering.Built := .addCall _ _ (.addCall _ _ (.addCall _ _ (.addCall _ _ .empty)))
  obtain ⟨arranged, walks⟩ :=
    arena_well_formed ⟨ordering, warehouse, 4⟩ built (utf8 "order") .downstream [] made
  obtain ⟨up, down, once, excerpts⟩ := walks 4 size.le
  have climbed := up 3 (by omega)
  obtain ⟨entries, extracted, _⟩ := excerpts 1
  rw [way, names] at climbed
  rw [order] at down
  rw [size] at once
  rw [shallow] at extracted
  exact ⟨tree, made, short, children, arranged, climbed, down, once, entries, extracted⟩

end TreeBuilder
end CodeAudit
