import CodeAudit.Proofs.CallTree.Enumeration

/-! What a cap on the number of nodes does. Nodes are only ever added at the end of the arena, and
children only to nodes without any, so that a tree under a cap is the front part of the tree without
one. -/
namespace CodeAudit

namespace CallTree

/-- The node with those of its children that stand in front of a place. -/
def Node.within (k : Nat) (node : Node) : Node :=
  { node with children := node.children.filter (· < k) }

/-- The front part of a tree. It counts as cut short when something is left out. -/
def cut (k : Nat) (t : CallTree) : CallTree :=
  { direction := t.direction
    nodes := (t.nodes.take k).map (Node.within k)
    truncated := decide (k < t.size) }

variable {t other : CallTree} {k i : Nat}

theorem ext_node? (direction : t.direction = other.direction)
    (truncated : t.truncated = other.truncated) (nodes : ∀ i, t.node? i = other.node? i) :
    t = other := by
  obtain ⟨_, _, _⟩ := t
  obtain ⟨_, _, _⟩ := other
  obtain rfl := Array.ext_getElem? nodes
  obtain rfl := direction
  obtain rfl := truncated
  rfl

theorem node?_cut : (t.cut k).node? i = if i < k then (t.node? i).map (Node.within k)
    else none := by
  simp only [node?, cut, Array.getElem?_map, Array.take_eq_extract, Array.getElem?_extract,
    Nat.zero_add, Nat.sub_zero]
  by_cases inside : i < t.nodes.size
  · by_cases below : i < k <;> simp [below, inside]
  · simp [inside]

theorem size_cut : (t.cut k).size = min k t.size := by
  simp [size, cut]

theorem size_cut_of_le (fits : t.size ≤ k) : (t.cut k).size = t.size := by
  rw [size_cut, Nat.min_eq_right fits]

theorem truncated_cut : (t.cut k).truncated = true ↔ k < t.size := decide_eq_true_iff

end CallTree

namespace TreeBuilder
variable {b : TreeBuilder} {t : CallTree} {allowed siblings names way : List Text} {first k : Nat}
  {cap : UInt64}

theorem filter_range' (start count k : Nat) :
    (List.range' start count).filter (· < k) = List.range' start (min (k - start) count) := by
  induction count generalizing start with
  | zero => simp
  | succ count ih =>
    rw [List.range'_succ, List.filter_cons, ih]
    by_cases below : start < k
    · have more : min (k - start) (count + 1) = min (k - (start + 1)) count + 1 := by omega
      simp only [below, decide_true, if_true, more, List.range'_succ]
    · have none : k - start = 0 := by omega
      have less : k - (start + 1) = 0 := by omega
      simp [below, none, less]

/-- Under a cap, as many names fit as the cap leaves room for. -/
theorem fitting_capped (some : cap ≠ 0) (fits : t.size ≤ cap.toNat) :
    ({ b with maxNodes := cap }).fitting (t.cut cap.toNat) names =
      names.take (cap.toNat - t.size) := by
  simp [fitting, room, some, CallTree.size_cut_of_le fits]

theorem addChildren_truncated :
    (b.addChildren t first names).truncated = true ↔ (b.fitting t names).length < names.length :=
  decide_eq_true_iff

theorem child_cut {name : Text} (below : first < cap.toNat) :
    ({ b with maxNodes := cap }).child (t.cut cap.toNat) first name =
      (b.child t first name).within cap.toNat := by
  have depth : ((t.cut cap.toNat).node? first).map CallTree.Node.depth =
      (t.node? first).map CallTree.Node.depth := by
    rw [CallTree.node?_cut, if_pos below, Option.map_map]
    rfl
  simp [child, depth, CallTree.Node.within]

/-- As long as there has been room for everything, children are added alike. -/
theorem addChildren_cut (uncapped : b.maxNodes = 0) (some : cap ≠ 0) (fits : t.size ≤ cap.toNat)
    (inside : first < t.size) :
    ({ b with maxNodes := cap }).addChildren (t.cut cap.toNat) first names =
      (b.addChildren t first names).cut cap.toNat := by
  have size : (t.cut cap.toNat).size = t.size := CallTree.size_cut_of_le fits
  have all : b.fitting t names = names := fitting_uncapped uncapped
  have fitting : ({ b with maxNodes := cap }).fitting (t.cut cap.toNat) names =
    names.take (cap.toNat - t.size) :=
    fitting_capped some fits
  refine CallTree.ext_node? rfl (Bool.eq_iff_iff.mpr ?_) (fun i => ?_)
  · rw [addChildren_truncated, CallTree.truncated_cut, fitting, List.length_take,
      addChildren_size, all]
    omega
  · rw [CallTree.node?_cut]
    by_cases old : i < t.size
    · rw [addChildren_old (size ▸ old), addChildren_old old, CallTree.node?_cut, if_pos (by omega),
        if_pos (by omega)]
      rw [fitting, all, size, List.length_take, Option.map_map, Option.map_map]
      refine congrArg (Option.map · _) (funext (fun node => ?_))
      by_cases here : first = i
      · simp [here, CallTree.Node.within, filter_range']
      · simp [here]
    · obtain ⟨j, rfl⟩ := Nat.exists_eq_add_of_le (Nat.le_of_not_lt old)
      rw [← size, addChildren_new, size, addChildren_new, fitting, all, List.getElem?_take]
      by_cases room : t.size + j < cap.toNat
      · rw [if_pos (by omega), if_pos room, Option.map_map]
        exact congrArg (Option.map · _)
          (funext (fun name => child_cut (Nat.lt_of_lt_of_le inside fits)))
      · rw [if_neg (by omega), if_neg room, Option.map_none]

/-- Beyond the cut nothing makes a difference. -/
theorem addChildren_beyond {node : CallTree.Node} (beyond : k < t.size)
    (found : t.node? first = some node) (childless : node.children = []) :
    (b.addChildren t first names).cut k = t.cut k := by
  have grown : (b.addChildren t first names).size = t.size + (b.fitting t names).length :=
    addChildren_size
  refine CallTree.ext_node? rfl ?_ (fun i => ?_)
  · exact decide_eq_decide.mpr (by omega)
  · rw [CallTree.node?_cut, CallTree.node?_cut]
    by_cases below : i < k
    · rw [if_pos below, if_pos below, addChildren_old (by omega), Option.map_map]
      by_cases here : first = i
      · subst here
        simp [found, childless, CallTree.Node.within, filter_range',
          Nat.sub_eq_zero_of_le (Nat.le_of_lt beyond)]
      · simp [here, Function.comp_def]
    · rw [if_neg below, if_neg below]

theorem unfoldAll_beyond (allowed : List Text) (uncapped : b.maxNodes = 0) (beyond : k < t.size)
    (waiting : t.Waiting way first siblings) :
    (b.unfoldAll allowed siblings first t).cut k = t.cut k := by
  revert way
  fun_induction b.unfoldAll allowed siblings first t with
  | case1 | case2 | case4 => exact fun _ => rfl
  | case3 allowed first t name rest _ _ below names ih _ =>
    rename_i further
    intro way waiting
    obtain ⟨node, found, childless, _⟩ := waiting.head
    have added : k < (b.addChildren t first names).size := by
      rw [addChildren_size]
      omega
    have unfolded : k < (b.unfoldAll below names t.size (b.addChildren t first names)).size :=
      Nat.lt_of_lt_of_le added unfoldAll_extends.size_le
    rw [further unfolded (waiting_others waiting),
      ih added (waiting_children (CallTree.node?_lt found) (addChildren_uncapped uncapped)),
      addChildren_beyond beyond found childless]

theorem unfoldAll_cons {name : Text} {rest : List Text} (going : t.truncated = false)
    (known : name ∈ allowed) :
    let below := allowed.erase name
    let names := (b.graph.related t.direction name).filter (· ∈ below)
    b.unfoldAll allowed (name :: rest) first t =
      b.unfoldAll allowed rest (first + 1)
        (b.unfoldAll below names t.size (b.addChildren t first names)) := by
  rw [unfoldAll, if_neg (by simp [going]), dif_pos known]

/-- Unfolding under a cap comes to the front part of what it comes to without one. -/
theorem unfoldAll_cut (uncapped : b.maxNodes = 0) (some : cap ≠ 0) (whole : t.truncated = false)
    (waiting : t.Waiting way first siblings) :
    ({ b with maxNodes := cap }).unfoldAll allowed siblings first (t.cut cap.toNat) =
      (b.unfoldAll allowed siblings first t).cut cap.toNat := by
  revert way
  fun_induction b.unfoldAll allowed siblings first t with
  | case1 => simp [unfoldAll]
  | case2 allowed first t name rest stopped =>
    rw [stopped] at whole
    contradiction
  | case4 allowed first t name rest _ absent => simp [unfoldAll, absent]
  | case3 allowed first t name rest _ known below names ih _ =>
    rename_i further
    intro way waiting
    obtain ⟨node, found, _, _⟩ := waiting.head
    by_cases fits : t.size ≤ cap.toNat
    · have inside := CallTree.node?_lt found
      have going : (t.cut cap.toNat).truncated = false := decide_eq_false (by omega)
      have added : (b.addChildren t first names).truncated = false := addChildren_uncapped uncapped
      rw [unfoldAll_cons going known, CallTree.size_cut_of_le fits,
        ← further (unfoldAll_uncapped uncapped added) (waiting_others waiting),
        ← ih added (waiting_children inside added), ← addChildren_cut uncapped some fits inside]
      rfl
    · -- The cap has been passed among the siblings before, and nothing more is unfolded.
      have beyond : cap.toNat < t.size := Nat.lt_of_not_le fits
      have whole := unfoldAll_beyond allowed uncapped beyond waiting
      rw [unfoldAll_cons ‹_› known] at whole
      rw [unfoldAll_stopped (decide_eq_true beyond)]
      exact whole.symm

/-! ### Whole trees -/

variable {root : Text} {direction : Direction} {excluded : List Text} {tree : CallTree}

theorem seed_cut (some : 1 ≤ k) : (b.seed root direction).cut k = b.seed root direction := by
  refine CallTree.ext_node? rfl (decide_eq_false (Nat.not_lt.mpr some)) (fun i => ?_)
  rw [CallTree.node?_cut]
  cases i with
  | zero => exact if_pos some
  | succ i => split <;> rfl

theorem build_cut (some : cap ≠ 0)
    (made : (({ b with maxNodes := 0 }).build root direction excluded).1 = .some tree) :
    (({ b with maxNodes := cap }).build root direction excluded).1 =
      .some (tree.cut cap.toNat) := by
  obtain ⟨clear, rfl⟩ := build_some made
  have least : 1 ≤ cap.toNat := Nat.pos_of_ne_zero (fun zero => some (UInt64.toNat.inj zero))
  rw [← unfoldAll_cut rfl some rfl seed_waiting, seed_cut least]
  simp only [build, if_neg clear]
  rfl

/-- Under a cap a tree is the front part of the one without: its first nodes, as many as the cap
allows, each with those of its children that are among them. It is cut short just if that leaves
something out. -/
theorem capped_build_front (graph : CallGraph) (index : FunctionIndex) (root : Text)
    (direction : Direction) (excluded : List Text) (cap : UInt64) (some : 1 ≤ cap)
    (made : (build { graph, index } root direction excluded).1 = .some tree) :
    ∃ capped, (build { graph, index, maxNodes := cap } root direction excluded).1 = .some capped ∧
      capped.direction = tree.direction ∧ capped.size = min cap.toNat tree.size ∧
      (∀ i < min cap.toNat tree.size, ∃ node, tree.node? i = .some node ∧
        capped.node? i = .some { node with children := node.children.filter (· < cap.toNat) }) ∧
      (capped.truncated = true ↔ cap.toNat < tree.size) := by
  have positive : cap ≠ 0 := by
    rintro rfl
    exact absurd some (by decide)
  refine ⟨tree.cut cap.toNat, build_cut (b := { graph, index }) positive made, rfl,
    CallTree.size_cut, ?_,
    CallTree.truncated_cut⟩
  intro i below
  obtain ⟨node, found⟩ := CallTree.node?_of_lt (t := tree) (i := i) (by omega)
  refine ⟨node, found, ?_⟩
  rw [CallTree.node?_cut, if_pos (by omega), found]
  rfl

/-- The cap falls between two children, of which the first stays with its parent. -/
theorem capped_build_front_roundabout : ∃ capped : CallTree,
    (build { graph := roundabout, index := { records := [] }, maxNodes := 2 } (utf8 "b")
      .downstream []).1 =
      .some capped ∧ capped.size = 2 ∧ (capped.node? 0).map CallTree.Node.children = .some [1] ∧
      capped.truncated = true := by
  have sized :
      (build { graph := roundabout, index := { records := [] } } (utf8 "b") .downstream []).1.map
      (fun tree => (tree.size, (tree.node? 0).map CallTree.Node.children)) =
        .some (3, .some [1, 2]) := by cbv
  obtain ⟨whole, made, same⟩ := Option.map_eq_some_iff.mp sized
  obtain ⟨size, children⟩ := Prod.mk.inj same
  obtain ⟨capped, capping, _, least, front, short⟩ :=
    capped_build_front roundabout { records := [] } (utf8 "b") .downstream [] 2 (by decide) made
  rw [size] at least front short
  obtain ⟨node, found, kept⟩ := front 0 (by decide)
  rw [found, Option.map_some, Option.some.injEq] at children
  refine ⟨capped, capping, least, ?_, short.mpr (by decide)⟩
  rw [kept, Option.map_some, children]
  rfl

end TreeBuilder
end CodeAudit
