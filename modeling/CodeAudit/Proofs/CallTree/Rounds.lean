import CodeAudit.Proofs.CallGraph.Distance
import CodeAudit.Proofs.CallTree.Truncation
import Mathlib.Data.Set.Card

/-! Unfolding as a loop over the nodes that wait to be expanded. Siblings repeat names freely and
both the arena and the waiting nodes grow, yet the loop ends: what is left to do behind a waiting
node is what unfolding does there, and that uses up a name with every step down. -/
namespace CodeAudit

namespace CallGraph
variable {g : CallGraph} {direction : Direction} {root name : Text} {excluded path : List Text}

/-- The names that a root leads to, itself among them. -/
def reachable (g : CallGraph) (direction : Direction) (root : Text) : Set Text :=
  {name | ∃ names, g.Chain direction root name names}

theorem Built.reachable_finite (built : g.Built) : (g.reachable direction root).Finite := by
  refine (List.finite_toSet (root :: g.functions)).subset ?_
  rintro name ⟨names, starts, ends, linked⟩
  obtain ⟨rest, rfl⟩ := List.head?_eq_some_iff.mp starts
  rcases List.mem_cons.mp (List.mem_of_getLast? ends) with rfl | later
  · exact List.mem_cons_self
  · exact List.mem_cons_of_mem _ (linked.known built later)

theorem SimplePath.reaches (simple : g.SimplePath direction excluded root path)
    (member : name ∈ path) :
    name ∈ g.reachable direction root := by
  obtain ⟨before, after, rfl⟩ := List.append_of_mem member
  have split : before ++ name :: after = (before ++ [name]) ++ after := by simp
  have starts := simple.starts
  have linked := simple.linked
  rw [split] at starts linked
  refine ⟨before ++ [name], ?_, List.getLast?_concat, linked.left_of_append⟩
  rw [List.head?_append_of_ne_nil _ (List.concat_ne_nil _ _)] at starts
  exact starts

theorem SimplePath.length_le (built : g.Built)
    (simple : g.SimplePath direction excluded root path) :
    path.length ≤ (g.reachable direction root).ncard := by
  rw [← List.toFinset_card_of_nodup simple.simple, ← Set.ncard_coe_finset]
  refine Set.ncard_le_ncard (fun name member => ?_) built.reachable_finite
  exact simple.reaches (List.mem_toFinset.mp member)

end CallGraph

namespace TreeBuilder
variable {b : TreeBuilder} {t : CallTree} {excluded names way allowed siblings : List Text}
  {name root : Text} {direction : Direction} {i first : Nat}

/-! ### The loop -/

/-- A tree in the making, and the nodes that wait to be expanded, the next one in front. -/
structure Expansion where
  tree : CallTree
  waiting : List Nat
deriving DecidableEq, Repr

def addChild (b : TreeBuilder) (t : CallTree) (i : Nat) (name : Text) : CallTree :=
  { t with
    nodes := (t.nodes.modify i (fun n => { n with children := n.children ++ [t.size] })).push
      (b.child t i name) }

/-- A name one call away from a node. An excluded name and one that stands on the way to the node
are passed over, at the cap a name stops the expansion, and any other becomes a child. -/
def offer (b : TreeBuilder) (excluded : List Text) (i : Nat) (t : CallTree) (name : Text) :
    CallTree :=
  if t.truncated then t
  else if excluded.contains name || (t.pathTo i).contains name then t
  else if b.maxNodes ≠ 0 ∧ b.maxNodes.toNat ≤ t.size then { t with truncated := true }
  else b.addChild t i name

/-- Expands the foremost of the waiting nodes; its children come before all others that wait. -/
def round (b : TreeBuilder) (excluded : List Text) (e : Expansion) : Expansion :=
  match e.waiting with
  | [] => e
  | i :: rest =>
      let names :=
        ((e.tree.node? i).map (fun node => b.graph.related e.tree.direction node.name)).getD []
      let tree := names.foldl (b.offer excluded i) e.tree
      { tree, waiting := ((tree.node? i).map CallTree.Node.children).getD [] ++ rest }

def Expansion.finished (e : Expansion) : Bool := e.waiting.isEmpty || e.tree.truncated

/-- So many rounds of the loop, none of them once it has finished. -/
inductive Rounds (b : TreeBuilder) (excluded : List Text) : Nat → Expansion → Expansion → Prop where
  | refl : Rounds b excluded 0 e e
  | next : e.finished = false → Rounds b excluded count (b.round excluded e) last →
      Rounds b excluded (count + 1) e last

variable {e middle last : Expansion} {count more : Nat}

theorem Rounds.trans (rounds : Rounds b excluded count e middle)
    (further : Rounds b excluded more middle last) :
    Rounds b excluded (count + more) e last := by
  induction rounds with
  | refl => rwa [Nat.zero_add]
  | next going _ ih =>
    rw [Nat.add_right_comm]
    exact .next going (ih further)

/-- The loop has one way to go, so none of its runs is longer than one that has finished. -/
theorem Rounds.le_of_finished (rounds : Rounds b excluded count e middle)
    (whole : Rounds b excluded more e last) (finished : last.finished = true) : count ≤ more := by
  induction rounds generalizing more with
  | refl => exact Nat.zero_le _
  | next going _ ih =>
    cases whole with
    | refl =>
      rw [finished] at going
      contradiction
    | next _ whole => exact Nat.succ_le_succ (ih whole)

/-! ### What a round does -/

theorem addChildren_nil {node : CallTree.Node} (found : t.node? i = some node)
    (childless : node.children = []) (going : t.truncated = false) : b.addChildren t i [] = t := by
  refine CallTree.ext_node? rfl going.symm (fun j => ?_)
  have none : b.fitting t [] = [] := List.take_nil
  by_cases inside : j < t.size
  · rw [addChildren_old inside, none]
    by_cases here : i = j
    · subst here
      rw [found, Option.map_some, if_pos rfl, List.length_nil, List.range'_zero, ← childless]
    · simp [here]
  · obtain ⟨k, rfl⟩ := Nat.exists_eq_add_of_le (Nat.le_of_not_lt inside)
    rw [addChildren_new, none]
    exact (Array.getElem?_eq_none (Nat.le_add_right _ _)).symm

theorem fitting_concat_full (capped : b.maxNodes ≠ 0)
    (full : b.maxNodes.toNat ≤ t.size + (b.fitting t names).length) :
    b.fitting t (names ++ [name]) = b.fitting t names := by
  simp only [fitting, room, if_neg capped, List.length_take] at full ⊢
  exact List.take_append_of_le_length (by omega)

theorem addChildren_congr {others : List Text} (same : b.fitting t names = b.fitting t others) :
    b.addChildren t i names =
      { b.addChildren t i others with
        truncated := decide ((b.fitting t others).length < names.length) } := by
  rw [← same]
  unfold fitting at same
  simp only [addChildren, fitting, same]

/-- A name too many stops the expansion, and so does every name after it. -/
theorem addChildren_concat_full (capped : b.maxNodes ≠ 0)
    (full : b.maxNodes.toNat ≤ t.size + (b.fitting t names).length) :
    b.addChildren t i (names ++ [name]) = { b.addChildren t i names with truncated := true } := by
  have fewer : (b.fitting t names).length < (names ++ [name]).length := by
    rw [List.length_append, List.length_singleton]
    exact Nat.lt_succ_of_le (List.length_take_le' _ _)
  rw [addChildren_congr (fitting_concat_full capped full), decide_eq_true fewer]

theorem addChild_node? (j : Nat) :
    (b.addChild t i name).node? j =
      if j = t.size then some (b.child t i name)
      else (t.node? j).map (fun n => if i = j then { n with children := n.children ++ [t.size] }
        else n) := by
  by_cases last : j = t.size
  · have pushed : (b.addChild t i name).nodes[(b.addChild t i name).nodes.size - 1]? =
        some (b.child t i name) := by
      simp [addChild, Array.getElem_push]
    have size : (b.addChild t i name).nodes.size - 1 = t.size := by simp [addChild, CallTree.size]
    rw [if_pos last, last, CallTree.node?, ← size, pushed]
  · rw [if_neg last]
    simp only [CallTree.size] at last
    simp only [addChild, CallTree.node?, Array.getElem?_push, Array.size_modify, if_neg last,
      Array.getElem?_modify]
    by_cases here : i = j <;> simp [here]

theorem child_addChildren (inside : i < t.size) :
    b.child (b.addChildren t i names) i name = b.child t i name := by
  have depth : ((b.addChildren t i names).node? i).map CallTree.Node.depth =
      (t.node? i).map CallTree.Node.depth := by
    rw [addChildren_old inside, Option.map_map]
    exact congrArg (Option.map · _) (funext (fun node => by simp))
  simp only [child, depth]

theorem addChildren_concat (inside : i < t.size) (fits : b.fitting t names = names)
    (room : b.fitting t (names ++ [name]) = names ++ [name]) :
    b.addChildren t i (names ++ [name]) = b.addChild (b.addChildren t i names) i name := by
  have size : (b.addChildren t i names).size = t.size + names.length := by
    rw [addChildren_size, fits]
  refine CallTree.ext_node? rfl ?_ (fun j => ?_)
  · refine (decide_eq_false ?_).trans (decide_eq_false ?_).symm
    · rw [← fitting, room]
      exact Nat.lt_irrefl _
    · rw [← fitting, fits]
      exact Nat.lt_irrefl _
  · rw [addChild_node?, size, child_addChildren inside]
    by_cases old : j < t.size
    · rw [addChildren_old old, if_neg (by omega), addChildren_old old, Option.map_map, fits, room]
      refine congrArg (Option.map · _) (funext (fun node => ?_))
      by_cases here : i = j
      · simp [here, List.range'_concat]
      · simp [here]
    · obtain ⟨k, rfl⟩ := Nat.exists_eq_add_of_le (Nat.le_of_not_lt old)
      have other : i ≠ t.size + k := by omega
      rw [addChildren_new, addChildren_new, room, fits]
      by_cases last : k = names.length
      · simp [last]
      · rw [if_neg (by omega)]
        by_cases below : k < names.length
        · simp [other, List.getElem?_append_left below, Function.comp_def]
        · have beyond : (names ++ [name])[k]? = none := List.getElem?_eq_none (by simp; omega)
          simp [below, beyond]

/-- One more name at a node whose children have been added so far. -/
theorem offer_addChildren (inside : i < t.size) (name : Text) :
    b.offer excluded i (b.addChildren t i names) name =
      b.addChildren t i (if name ∈ excluded ∨ name ∈ t.pathTo i then names
        else names ++ [name]) := by
  have grown : (b.addChildren t i names).Extends t := addChildren_extends
  have size : (b.addChildren t i names).size = t.size + (b.fitting t names).length :=
    addChildren_size
  simp only [offer, grown.pathTo inside, size, Bool.or_eq_true, List.contains_iff_mem]
  split_ifs with stopped passed passed full
  · rfl
  · have fewer := addChildren_truncated.mp stopped
    have capped : b.maxNodes ≠ 0 := fun uncapped => by
      rw [addChildren_uncapped uncapped] at stopped
      contradiction
    have full : b.maxNodes.toNat ≤ t.size + (b.fitting t names).length := by
      simp only [fitting, room, if_neg capped, List.length_take] at fewer ⊢
      omega
    rw [addChildren_concat_full capped full, ← stopped]
  · rfl
  · rw [addChildren_concat_full full.1 full.2]
  · have fits : b.fitting t names = names := fitting_all (Bool.eq_false_iff.mpr stopped)
    refine (addChildren_concat inside fits ?_).symm
    by_cases uncapped : b.maxNodes = 0
    · exact fitting_uncapped uncapped
    · have below : ¬b.maxNodes.toNat ≤ t.size + (b.fitting t names).length :=
        fun above => full ⟨uncapped, above⟩
      rw [fits] at below
      refine List.take_of_length_le ?_
      rw [room, if_neg uncapped, List.length_append, List.length_singleton]
      omega

theorem foldl_offer {node : CallTree.Node} (found : t.node? i = some node)
    (childless : node.children = []) (going : t.truncated = false) (names : List Text) :
    names.foldl (b.offer excluded i) t =
      b.addChildren t i (names.filter (fun name => ¬(name ∈ excluded ∨ name ∈ t.pathTo i))) := by
  induction names using List.reverseRecOn with
  | nil => exact (addChildren_nil found childless going).symm
  | append_singleton names name ih =>
    rw [List.foldl_append, List.foldl_cons, List.foldl_nil, ih,
      offer_addChildren (CallTree.node?_lt found)]
    by_cases passed : name ∈ excluded ∨ name ∈ t.pathTo i
    · rw [if_pos passed, List.filter_append, List.filter_singleton,
        decide_eq_false (not_not.mpr passed)]
      simp
    · rw [if_neg passed, List.filter_append, List.filter_singleton, decide_eq_true passed]
      simp

/-- The names that may still be used below a way are those that are neither excluded nor on it. -/
structure Open (g : CallGraph) (excluded allowed way : List Text) : Prop where
  once : allowed.Nodup
  known : ∀ name ∈ g.functions, name ∈ allowed ↔ name ∉ excluded ∧ name ∉ way

theorem open_clearNames {g : CallGraph} (built : g.Built) (clear : root ∉ excluded) :
    Open g excluded (g.clearNames excluded root) [] := by
  refine ⟨built.clearNames_nodup excluded root, fun name known => ?_⟩
  by_cases same : name = root <;> simp [CallGraph.clearNames, same, clear, known]

theorem Open.step {g : CallGraph} (opened : Open g excluded allowed way) (name : Text) :
    Open g excluded (allowed.erase name) (way ++ [name]) := by
  refine ⟨opened.once.erase name, fun other known => ?_⟩
  rw [opened.once.mem_erase_iff, opened.known other known, List.mem_append, List.mem_singleton]
  tauto

theorem Open.filter_related {g : CallGraph} (built : g.Built) (opened : Open g excluded allowed way)
    (direction : Direction) (name : Text) :
    (g.related direction name).filter (fun other => ¬(other ∈ excluded ∨ other ∈ way)) =
      (g.related direction name).filter (· ∈ allowed) := by
  refine List.filter_congr (fun other member => decide_eq_decide.mpr ?_)
  rw [opened.known other ((built.related_within direction name).2 member), not_or]

/-- A round expands the foremost node as unfolding does. -/
theorem round_cons {node : CallTree.Node} {rest : List Nat} (built : b.graph.Built)
    (going : t.truncated = false) (found : t.node? first = some node)
    (childless : node.children = []) (opened : Open b.graph excluded allowed (t.pathTo first)) :
    let names := (b.graph.related t.direction node.name).filter (· ∈ allowed)
    b.round excluded { tree := t, waiting := first :: rest } =
      { tree := b.addChildren t first names
        waiting := List.range' t.size (b.fitting t names).length ++ rest } := by
  intro names
  have expanded : (b.graph.related t.direction node.name).foldl (b.offer excluded first) t =
      b.addChildren t first names := by
    rw [foldl_offer found childless going, opened.filter_related built]
  have children : ((b.addChildren t first names).node? first).map CallTree.Node.children =
      some (List.range' t.size (b.fitting t names).length) := by
    rw [addChildren_old (CallTree.node?_lt found), found]
    simp
  simp only [round, found, Option.map_some, Option.getD_some, expanded, children]

/-- Rounds turn what waits in front of the rest into a tree. Each of them adds the node that it
expands to those that are done, so there are no more rounds than such nodes. -/
def Unfolds (b : TreeBuilder) (excluded : List Text) (t : CallTree) (waiting rest : List Nat)
    (tree : CallTree) : Prop :=
  ∃ count last, Rounds b excluded count { tree := t, waiting } last ∧ last.tree = tree ∧
    (tree.truncated = false → last.waiting = rest) ∧
      count + t.size + rest.length ≤ tree.size + waiting.length

section Unfolds
variable {grown tree : CallTree} {waiting middle rest : List Nat}

theorem Unfolds.refl (t : CallTree) (waiting : List Nat) : Unfolds b excluded t waiting waiting t :=
  ⟨0, _, .refl, rfl, fun _ => rfl, by omega⟩

theorem Unfolds.trans (unfolds : Unfolds b excluded t waiting middle grown)
    (going : grown.truncated = false) (further : Unfolds b excluded grown middle rest tree) :
    Unfolds b excluded t waiting rest tree := by
  obtain ⟨count, last, rounds, rfl, left, few⟩ := unfolds
  obtain ⟨more, final, onward, rfl, emptied, fewer⟩ := further
  obtain rfl := left going
  exact ⟨count + more, final, rounds.trans onward, rfl, emptied, by omega⟩

theorem Unfolds.stop (unfolds : Unfolds b excluded t waiting middle tree)
    (stopped : tree.truncated = true) (fewer : rest.length ≤ middle.length) :
    Unfolds b excluded t waiting rest tree := by
  obtain ⟨count, last, rounds, same, _, few⟩ := unfolds
  refine ⟨count, last, rounds, same, fun going => ?_, by omega⟩
  rw [stopped] at going
  contradiction

end Unfolds

theorem unfolds_head {others : List Text} (built : b.graph.Built) (going : t.truncated = false)
    (opened : Open b.graph excluded allowed way) (waiting : t.Waiting way first (name :: others))
    (rest : List Nat) :
    let names := (b.graph.related t.direction name).filter (· ∈ allowed.erase name)
    Unfolds b excluded t (List.range' first (others.length + 1) ++ rest)
      (List.range' t.size (b.fitting t names).length ++
        (List.range' (first + 1) others.length ++ rest))
      (b.addChildren t first names) := by
  intro names
  obtain ⟨node, found, childless, path⟩ := waiting.head
  have named : node.name = name := by
    have last := CallTree.pathTo_last found
    rw [path, List.getLast?_concat] at last
    exact (Option.some.inj last).symm
  refine ⟨1, _, .next (by simp [Expansion.finished, going, List.range'_succ]) .refl, ?_⟩
  rw [List.range'_succ, List.cons_append,
    round_cons built going found childless (path ▸ opened.step name), named]
  refine ⟨rfl, fun _ => rfl, ?_⟩
  simp only [addChildren_size, List.length_append, List.length_cons, List.length_range', names]
  omega

/-- The loop unfolds siblings that wait in front, and leaves the others waiting as they are. -/
theorem unfolds_unfoldAll (built : b.graph.Built) (going : t.truncated = false)
    (known : siblings ⊆ allowed) (opened : Open b.graph excluded allowed way)
    (waiting : t.Waiting way first siblings) (rest : List Nat) :
    Unfolds b excluded t (List.range' first siblings.length ++ rest) rest
      (b.unfoldAll allowed siblings first t) := by
  -- The induction follows unfolding, below the first sibling and then along the others; what waits
  -- behind is arbitrary, since the others wait behind what is below the first.
  revert way rest
  fun_induction b.unfoldAll allowed siblings first t with
  | case1 allowed first t => exact fun _ _ rest => .refl t rest
  | case2 allowed first t name others stopped =>
    rw [going] at stopped
    contradiction
  | case4 allowed first t name others _ absent => exact absurd (known List.mem_cons_self) absent
  | case3 allowed first t name others _ present below names ih _ =>
    rename_i further
    intro way opened waiting rest
    have head : Unfolds b excluded t _
        (List.range' t.size (b.fitting t names).length ++
          (List.range' (first + 1) others.length ++ rest))
        (b.addChildren t first names) := unfolds_head built going opened waiting rest
    cases stopped : (b.addChildren t first names).truncated with
    | true =>
      rw [unfoldAll_stopped stopped, unfoldAll_stopped stopped]
      exact head.stop stopped (by simp only [List.length_append]; omega)
    | false =>
      obtain ⟨node, found, _, path⟩ := waiting.head
      have fits : b.fitting t names = names := fitting_all stopped
      have narrower : names ⊆ below :=
        fun other member => of_decide_eq_true (List.mem_filter.mp member).2
      have inner := ih stopped narrower (path ▸ opened.step name)
        (waiting_children (CallTree.node?_lt found) stopped)
        (List.range' (first + 1) others.length ++ rest)
      rw [fits] at head
      have both := head.trans stopped inner
      cases ended : (b.unfoldAll below names t.size (b.addChildren t first names)).truncated with
      | true =>
        rw [unfoldAll_stopped ended]
        exact both.stop ended (by simp only [List.length_append]; omega)
      | false =>
        exact both.trans ended
          (further ended (List.cons_subset.mp known).2 opened (waiting_others waiting) rest)

/-! ### What every round keeps -/

/-- An arena in which children are nodes and parents stand before them, so that every way up comes
to an end. -/
structure Within (t : CallTree) : Prop where
  children : ∀ i node, t.node? i = some node → ∀ j ∈ node.children, j < t.size
  parents : ∀ i node p, t.node? i = some node → node.parent = some p → p < i

structure Expansion.Steady (e : Expansion) : Prop where
  arena : Within e.tree
  waiting : ∀ i ∈ e.waiting, i < e.tree.size

theorem addChild_size : (b.addChild t i name).size = t.size + 1 := by simp [addChild, CallTree.size]

theorem Within.addChild (within : Within t) (inside : i < t.size) (name : Text) :
    Within (b.addChild t i name) := by
  refine ⟨fun j node found k member => ?_, fun j node p found hangs => ?_⟩
  all_goals rw [addChild_node?] at found; split at found
  · obtain rfl := Option.some.inj found
    contradiction
  · obtain ⟨old, present, rfl⟩ := Option.map_eq_some_iff.mp found
    rw [addChild_size]
    split at member
    · rcases List.mem_append.mp member with member | member
      · exact Nat.lt_succ_of_lt (within.children j old present k member)
      · rw [List.mem_singleton.mp member]
        exact Nat.lt_succ_self _
    · exact Nat.lt_succ_of_lt (within.children j old present k member)
  · obtain rfl := Option.some.inj found
    obtain rfl := Option.some.inj hangs
    omega
  · obtain ⟨old, present, rfl⟩ := Option.map_eq_some_iff.mp found
    refine within.parents j old p present ?_
    split at hangs <;> exact hangs

theorem Within.offer (within : Within t) (inside : i < t.size) (excluded : List Text)
    (name : Text) :
    Within (b.offer excluded i t name) ∧ t.size ≤ (b.offer excluded i t name).size := by
  unfold TreeBuilder.offer
  split_ifs
  · exact ⟨within, Nat.le_refl _⟩
  · exact ⟨within, Nat.le_refl _⟩
  · exact ⟨⟨within.children, within.parents⟩, Nat.le_refl _⟩
  · exact ⟨within.addChild inside name, addChild_size ▸ Nat.le_succ _⟩

theorem Within.foldl_offer (within : Within t) (inside : i < t.size) (excluded names : List Text) :
    Within (names.foldl (b.offer excluded i) t) ∧
      t.size ≤ (names.foldl (b.offer excluded i) t).size := by
  induction names generalizing t with
  | nil => exact ⟨within, Nat.le_refl _⟩
  | cons name names ih =>
    obtain ⟨after, wider⟩ := within.offer (b := b) inside excluded name
    obtain ⟨last, widest⟩ := ih after (Nat.lt_of_lt_of_le inside wider)
    exact ⟨last, Nat.le_trans wider widest⟩

theorem Expansion.Steady.round (steady : e.Steady) : (b.round excluded e).Steady := by
  unfold TreeBuilder.round
  rcases waiting : e.waiting with _ | ⟨i, rest⟩
  · exact steady
  · simp only
    have inside : i < e.tree.size := steady.waiting i (waiting ▸ List.mem_cons_self)
    generalize ((e.tree.node? i).map (fun node => b.graph.related e.tree.direction node.name)).getD
      [] = names
    obtain ⟨within, wider⟩ := steady.arena.foldl_offer (b := b) inside excluded names
    refine ⟨within, fun j member => ?_⟩
    rcases List.mem_append.mp member with child | later
    · rcases found : (names.foldl (b.offer excluded i) e.tree).node? i with _ | node
      · simp [found] at child
      · rw [found] at child
        exact within.children i node found j child
    · exact Nat.lt_of_lt_of_le (steady.waiting j (waiting ▸ List.mem_cons_of_mem _ later)) wider

theorem Rounds.steady (rounds : Rounds b excluded count e last) (steady : e.Steady) :
    last.Steady := by
  induction rounds with
  | refl => exact steady
  | next _ _ ih => exact ih steady.round

/-! ### Whole trees -/

variable {tree : CallTree}

def opening (b : TreeBuilder) (root : Text) (direction : Direction) : Expansion :=
  { tree := b.seed root direction, waiting := [0] }

theorem opening_steady : (b.opening root direction).Steady := by
  refine ⟨⟨fun i node found j child => ?_, fun i node p found hangs => ?_⟩, fun i first => ?_⟩
  · obtain ⟨_, rfl⟩ := CallTree.node?_single found
    contradiction
  · obtain ⟨_, rfl⟩ := CallTree.node?_single found
    contradiction
  · rw [List.mem_singleton.mp first]
    exact Nat.zero_lt_one

theorem rounds_build (built : b.graph.Built)
    (made : (b.build root direction excluded).1 = some tree) :
    ∃ count last, Rounds b excluded count (b.opening root direction) last ∧ last.finished = true ∧
      last.tree = tree ∧
      count ≤ tree.size := by
  obtain ⟨clear, rfl⟩ := build_some made
  obtain ⟨count, last, rounds, unfolded, emptied, few⟩ :=
    unfolds_unfoldAll built (t := b.seed root direction) rfl (by simp [CallGraph.clearNames])
      (open_clearNames built clear) seed_waiting []
  rw [← unfolded] at emptied few ⊢
  refine ⟨count, last, rounds, ?_, rfl, Nat.le_of_succ_le_succ few⟩
  cases ended : last.tree.truncated with
  | true => simp [Expansion.finished, ended]
  | false => simp [Expansion.finished, emptied ended]

/-- A tree that has been cut short has the nodes of the whole one, as far as it goes. -/
theorem build_uncut (made : (b.build root direction excluded).1 = some tree) {node : CallTree.Node}
    (found : tree.node? i = some node) :
    ∃ whole old, (({ b with maxNodes := 0 }).build root direction excluded).1 = some whole ∧
      whole.node? i = some old ∧
      node.depth = old.depth := by
  by_cases uncapped : b.maxNodes = 0
  · refine ⟨tree, node, ?_, found, rfl⟩
    rw [← uncapped]
    exact made
  · rcases all : (({ b with maxNodes := 0 }).build root direction excluded).1 with _ | whole
    · exact absurd (build_none.mp all) (build_some made).1
    · obtain rfl := Option.some.inj (made.symm.trans (build_cut uncapped all))
      rw [CallTree.node?_cut] at found
      split at found
      · obtain ⟨old, there, rfl⟩ := Option.map_eq_some_iff.mp found
        exact ⟨whole, old, all, there, rfl⟩
      · contradiction

/-- The way to a node is a simple path, so that it is no longer than there are names to use. -/
theorem build_depth_lt (built : b.graph.Built)
    (made : (b.build root direction excluded).1 = some tree) {node : CallTree.Node}
    (found : tree.node? i = some node) :
    node.depth < (b.graph.reachable direction root).ncard := by
  obtain ⟨whole, old, all, there, depth⟩ := build_uncut made found
  have uncapped : ({ b with maxNodes := 0 } : TreeBuilder).graph.Built := built
  have simple := (build_bijOn uncapped all (build_whole rfl all)).mapsTo (CallTree.node?_lt there)
  calc node.depth
    _ < old.depth + 1 := depth ▸ Nat.lt_succ_self _
    _ = (whole.pathTo i).length := (build_sound uncapped all).depth there
    _ ≤ _ := simple.length_le built

/-- The loop ends in the tree that is built, and no run of it has more rounds than that tree has
nodes, whatever the cap and however the calls go round. All the while every way up ends and nothing
outside the arena is looked at, and no node lies deeper than the names reachable from the root
allow. -/
theorem expansion_ends (b : TreeBuilder) (built : b.graph.Built) (root : Text)
    (direction : Direction) (excluded : List Text) :
    ((b.build root direction excluded).1 = none ↔ root ∈ excluded) ∧
    ∀ tree, (b.build root direction excluded).1 = some tree →
      (∃ count last, Rounds b excluded count (b.opening root direction) last ∧
        last.finished = true ∧ last.tree = tree) ∧
      (∀ count e, Rounds b excluded count (b.opening root direction) e → count ≤ tree.size ∧
        e.Steady) ∧
      ∀ i node, tree.node? i = some node →
        node.depth < (b.graph.reachable direction root).ncard := by
  refine ⟨build_none, fun tree made => ?_⟩
  obtain ⟨most, last, whole, finished, same, few⟩ := rounds_build built made
  refine ⟨⟨most, last, whole, finished, same⟩, fun count e rounds =>
    ⟨?_, rounds.steady opening_steady⟩, ?_⟩
  · exact Nat.le_trans (rounds.le_of_finished whole finished) few
  · exact fun i node found => build_depth_lt built made found

theorem expansion_ends_roundabout :
    ∃ tree, (build { graph := roundabout, index := { records := [] } } (utf8 "a") .downstream []).1
      = some tree ∧
      (∃ count last, Rounds { graph := roundabout, index := { records := [] } } [] count
        (opening { graph := roundabout, index := { records := [] } } (utf8 "a") .downstream) last ∧
        last.finished = true ∧ last.tree = tree) ∧
      2 < (roundabout.reachable .downstream (utf8 "a")).ncard := by
  have deepest :
      (build { graph := roundabout, index := { records := [] } } (utf8 "a") .downstream []).1.bind
      (fun tree => (tree.node? 2).map CallTree.Node.depth) = some 2 := by cbv
  obtain ⟨tree, made, there⟩ := Option.bind_eq_some_iff.mp deepest
  obtain ⟨node, found, depth⟩ := Option.map_eq_some_iff.mp there
  obtain ⟨ends, _, shallow⟩ :=
    (expansion_ends { graph := roundabout, index := { records := [] } } roundabout_built
    (utf8 "a") .downstream []).2 tree made
  exact ⟨tree, made, ends, depth ▸ shallow 2 node found⟩

end TreeBuilder
end CodeAudit
