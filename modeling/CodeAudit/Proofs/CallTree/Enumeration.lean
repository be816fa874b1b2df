import CodeAudit.Proofs.CallGraph.SimplePath
import CodeAudit.Proofs.CallTree.Arena
import Mathlib.Data.Set.Function

/-! Trees enumerate simple paths. As long as there is room, unfolding adds the ways on from the
siblings at hand, one node for each, so that a tree that has not been cut short holds every simple
path from its root just once. -/
namespace CodeAudit

namespace CallTree

/-- Siblings that stand side by side from a place on, below the way to them and with nothing below
themselves. -/
def Waiting (t : CallTree) (way : List Text) (first : Nat) (siblings : List Text) : Prop :=
  ∀ k name, siblings[k]? = some name →
    ∃ node, t.node? (first + k) = some node ∧ node.children = [] ∧
      t.pathTo (first + k) = way ++ [name]

variable {t later : CallTree} {way rest : List Text} {first : Nat} {name : Text}

theorem Waiting.head (waiting : t.Waiting way first (name :: rest)) :
    ∃ node, t.node? first = some node ∧ node.children = [] ∧ t.pathTo first = way ++ [name] :=
  waiting 0 name rfl

/-- The others still wait when nothing has changed but at the first of them. -/
theorem Waiting.tail (waiting : t.Waiting way first (name :: rest)) (grown : later.Extends t)
    (same : ∀ i, i < t.size → i ≠ first → later.node? i = t.node? i) :
    later.Waiting way (first + 1) rest := by
  intro k sibling listed
  obtain ⟨node, found, childless, path⟩ := waiting (k + 1) sibling listed
  have place : first + 1 + k = first + (k + 1) := by omega
  have inside := node?_lt found
  rw [place, same _ inside (by omega), grown.pathTo inside]
  exact ⟨node, found, childless, path⟩

end CallTree

namespace TreeBuilder
variable {b : TreeBuilder} {t : CallTree} {allowed siblings names way rest : List Text}
  {first i : Nat} {name : Text}

theorem unfoldAll_stopped (stopped : t.truncated = true) :
    b.unfoldAll allowed siblings first t = t := by
  cases siblings with
  | nil => rw [unfoldAll]
  | cons name rest => rw [unfoldAll, if_pos stopped]

/-- What every addition of children keeps is kept by unfolding. -/
theorem unfoldAll_keeps {motive : CallTree → Prop}
    (step : ∀ t parent name (below : List Text), motive t →
      motive (b.addChildren t parent ((b.graph.related t.direction name).filter (· ∈ below))))
    (start : motive t) : motive (b.unfoldAll allowed siblings first t) := by
  fun_induction b.unfoldAll allowed siblings first t with
  | case1 | case2 | case4 => exact start
  | case3 allowed first t name rest _ _ below names ih _ =>
    rename_i further
    exact further (ih (step t first name below start))

theorem unfoldAll_extends : (b.unfoldAll allowed siblings first t).Extends t := by
  apply unfoldAll_keeps (motive := fun later => later.Extends t)
  · intro later parent name below grown
    exact addChildren_extends.trans grown
  · exact .refl t

theorem unfoldAll_direction : (b.unfoldAll allowed siblings first t).direction = t.direction := by
  apply unfoldAll_keeps (motive := fun later => later.direction = t.direction)
  · intro later parent name below same
    exact same
  · rfl

/-- What stands in front of the siblings stays as it is. -/
theorem unfoldAll_front (front : i < first) (inside : i < t.size) :
    (b.unfoldAll allowed siblings first t).node? i = t.node? i := by
  fun_induction b.unfoldAll allowed siblings first t with
  | case1 | case2 | case4 => rfl
  | case3 allowed first t name rest _ _ below names ih _ further =>
    have wider : (b.addChildren t first names).Extends t := addChildren_extends
    have widest : (b.unfoldAll below names t.size (b.addChildren t first names)).Extends
        (b.addChildren t first names) :=
      unfoldAll_extends
    have wide := wider.size_le
    have wides := widest.size_le
    rw [further (by omega) (by omega), ih inside (by omega), addChildren_old inside]
    simp [Nat.ne_of_gt front]

/-- New children wait below their parent. -/
theorem waiting_children (inside : first < t.size)
    (whole : (b.addChildren t first names).truncated = false) :
    (b.addChildren t first names).Waiting (t.pathTo first) t.size names := by
  intro k name listed
  have grown : (b.addChildren t first names).Extends t := addChildren_extends
  have found : (b.addChildren t first names).node? (t.size + k) = some (b.child t first name) := by
    rw [addChildren_new, fitting_all whole, listed, Option.map_some]
  refine ⟨_, found, rfl, ?_⟩
  rw [CallTree.pathTo_child found rfl (by omega), grown.pathTo inside]
  rfl

/-- The other siblings wait while the first of them is unfolded. -/
theorem waiting_others (waiting : t.Waiting way first (name :: rest)) :
    (b.unfoldAll allowed siblings t.size (b.addChildren t first names)).Waiting way (first + 1)
      rest := by
  have grown : (b.addChildren t first names).Extends t := addChildren_extends
  refine waiting.tail (unfoldAll_extends.trans grown) (fun i inside other => ?_)
  rw [unfoldAll_front inside (Nat.lt_of_lt_of_le inside grown.size_le), addChildren_old inside]
  simp [Ne.symm other]

theorem sound_unfoldAll (built : b.graph.Built) (sound : t.Sound b.index)
    (waiting : t.Waiting way first siblings) :
    (b.unfoldAll allowed siblings first t).Sound b.index := by
  revert way
  fun_induction b.unfoldAll allowed siblings first t with
  | case1 | case2 | case4 => exact fun _ => sound
  | case3 allowed first t name rest _ _ below names ih _ =>
    rename_i further
    intro way waiting
    obtain ⟨node, found, childless, path⟩ := waiting.head
    have ordered : names.Pairwise (· < ·) := (built.related_within t.direction name).1.filter _
    have added := sound_addChildren sound found childless ordered
    refine further ?_ (waiting_others waiting)
    rcases stopped : (b.addChildren t first names).truncated
    · exact ih added (waiting_children (CallTree.node?_lt found) stopped)
    · exact (unfoldAll_stopped stopped).symm ▸ added

/-- As long as there is room, exactly the ways on from the siblings are added. -/
theorem unfoldAll_paths (waiting : t.Waiting way first siblings)
    (whole : (b.unfoldAll allowed siblings first t).truncated = false) :
    (b.unfoldAll allowed siblings first t).paths =
      t.paths ++ (b.graph.descents t.direction allowed siblings).map (way ++ ·) := by
  revert way
  fun_induction b.unfoldAll allowed siblings first t with
  | case1 => simp [CallGraph.descents_nil]
  | case2 allowed first t name rest stopped =>
    rw [stopped] at whole
    contradiction
  | case4 allowed first t name rest _ absent => simp [CallGraph.descents, absent]
  | case3 allowed first t name rest _ known below names ih _ =>
    rename_i further
    intro way waiting
    obtain ⟨node, found, childless, path⟩ := waiting.head
    have inside := CallTree.node?_lt found
    have onward : (b.unfoldAll below names t.size (b.addChildren t first names)).truncated =
        false :=
      Bool.eq_false_iff.mpr (fun stopped =>
        by rw [unfoldAll_stopped stopped, stopped] at whole; contradiction)
    have added : (b.addChildren t first names).truncated = false :=
      Bool.eq_false_iff.mpr (fun stopped =>
        by rw [unfoldAll_stopped stopped, stopped] at onward; contradiction)
    have same : (b.addChildren t first names).direction = t.direction := rfl
    rw [further whole (waiting_others waiting), ih onward (waiting_children inside added),
      addChildren_paths inside,
      fitting_all added, CallGraph.descents_cons known, path, unfoldAll_direction, same]
    simp [names, below, Function.comp_def]

theorem unfoldAll_uncapped (uncapped : b.maxNodes = 0) (whole : t.truncated = false) :
    (b.unfoldAll allowed siblings first t).truncated = false := by
  apply unfoldAll_keeps (motive := fun later => later.truncated = false)
  · intro later parent name below _
    exact addChildren_uncapped uncapped
  · exact whole

/-! ### Whole trees -/

variable {tree : CallTree} {root : Text} {direction : Direction} {excluded : List Text}

def seed (b : TreeBuilder) (root : Text) (direction : Direction) : CallTree :=
  { direction, nodes := #[{ name := root, record := b.index.find? root }] }

theorem seed_path (b : TreeBuilder) (root : Text) (direction : Direction) :
    (b.seed root direction).pathTo 0 = [root] := by
  have found : (b.seed root direction).node? 0 =
      some { name := root, record := b.index.find? root } := rfl
  rw [CallTree.pathTo_node found]
  rfl

theorem seed_waiting : (b.seed root direction).Waiting [] 0 [root] := by
  intro k name listed
  cases k with
  | zero =>
    obtain rfl := Option.some.inj listed
    exact ⟨_, rfl, rfl, b.seed_path root direction⟩
  | succ k => cases listed

theorem build_none : (b.build root direction excluded).1 = none ↔ root ∈ excluded := by
  unfold build
  split <;> simp_all

theorem build_some (made : (b.build root direction excluded).1 = some tree) :
    root ∉ excluded ∧ tree = b.unfoldAll (b.graph.clearNames excluded root) [root] 0
      (b.seed root direction) := by
  unfold build at made
  split at made
  · contradiction
  next clear => exact ⟨clear, (Option.some.inj made).symm⟩

theorem build_sound (built : b.graph.Built)
    (made : (b.build root direction excluded).1 = some tree) :
    tree.Sound b.index := by
  obtain ⟨_, rfl⟩ := build_some made
  exact sound_unfoldAll built (CallTree.sound_seed direction root) seed_waiting

/-- A tree that has not been cut short holds the simple paths one after the other. -/
theorem build_paths (made : (b.build root direction excluded).1 = some tree)
    (whole : tree.truncated = false) :
    tree.paths = b.graph.simplePaths direction excluded root := by
  obtain ⟨_, rfl⟩ := build_some made
  have seeded : (b.seed root direction).paths = [[root]] := by
    rw [← b.seed_path root direction]
    rfl
  rw [unfoldAll_paths seed_waiting whole, seeded, CallGraph.simplePaths]
  simp [seed]

theorem build_whole (uncapped : b.maxNodes = 0)
    (made : (b.build root direction excluded).1 = some tree) :
    tree.truncated = false := by
  obtain ⟨_, rfl⟩ := build_some made
  exact unfoldAll_uncapped uncapped rfl

/-- The nodes of a tree that has not been cut short, and the simple paths, stand for each other. -/
theorem build_bijOn (built : b.graph.Built) (made : (b.build root direction excluded).1 = some tree)
    (whole : tree.truncated = false) :
    Set.BijOn tree.pathTo {i | i < tree.size}
      {path | b.graph.SimplePath direction excluded root path} := by
  have paths := build_paths made whole
  have listed (path : List Text) : path ∈ tree.paths ↔
      b.graph.SimplePath direction excluded root path := by
    rw [paths]
    exact CallGraph.mem_simplePaths built (build_some made).1
  have once : tree.paths.Nodup := paths ▸ CallGraph.simplePaths_nodup built excluded
  refine ⟨fun i inside => ?_, fun i inside j also same => ?_, fun path simple => ?_⟩
  · exact (listed _).mp (List.mem_map_of_mem (List.mem_range.mpr inside))
  · exact List.inj_on_of_nodup_map once (List.mem_range.mpr inside) (List.mem_range.mpr also) same
  · obtain ⟨i, inside, same⟩ := List.mem_map.mp ((listed path).mpr simple)
    exact ⟨i, List.mem_range.mp inside, same⟩

end TreeBuilder

namespace CallTree

/-- A node fits the way to it: it has the last name of that way and the record found for it, and its
children, in the order of their names, are the nodes that go on by one name. -/
structure Fits (index : FunctionIndex) (t : CallTree) (i : Nat) (node : Node) : Prop where
  named : (t.pathTo i).getLast? = some node.name
  depth : node.depth + 1 = (t.pathTo i).length
  record : node.record = index.find? node.name
  children : ∀ j, j ∈ node.children ↔ j < t.size ∧ ∃ name, t.pathTo j = t.pathTo i ++ [name]
  ordered : node.children.Pairwise t.Before

theorem Sound.fits {index : FunctionIndex} {t : CallTree} (sound : t.Sound index)
    (distinct : Set.InjOn t.pathTo {i | i < t.size}) {i : Nat} {node : Node}
    (found : t.node? i = some node) :
    t.Fits index i node := by
  refine ⟨pathTo_last found, sound.depth found, sound.records i node found, fun j =>
    ?_, sound.ordered i node found⟩
  rw [sound.members i node found j]
  constructor
  · rintro ⟨child, there, parent⟩
    rcases sound.parents j child there with ⟨_, none⟩ | ⟨p, _, hangs, below, _, _⟩
    · rw [none] at parent
      contradiction
    · obtain rfl := Option.some.inj (hangs.symm.trans parent)
      exact ⟨node?_lt there, child.name, pathTo_child there hangs below⟩
  · rintro ⟨inside, name, onward⟩
    obtain ⟨child, there⟩ := node?_of_lt inside
    refine ⟨child, there, ?_⟩
    rcases sound.parents j child there with ⟨rfl, none⟩ | ⟨p, above, hangs, below, _, _⟩
    · -- The way to the root is one name long.
      have lengths := congrArg List.length onward
      rw [pathTo_node there, none, pathTo_node found] at lengths
      simp only [List.length_append, List.length_singleton, List.length_nil] at lengths
      omega
    · rw [pathTo_child there hangs below] at onward
      have same := (List.append_inj' onward rfl).1
      rw [hangs, distinct (Nat.lt_trans below inside) (node?_lt found) same]

end CallTree

namespace TreeBuilder

/-- Without a cap, the nodes of a tree are the simple paths from its root, one each. There is a tree
unless the root is excluded. -/
theorem build_enumerates (b : TreeBuilder) (built : b.graph.Built) (uncapped : b.maxNodes = 0)
    (root : Text) (direction : Direction) (excluded : List Text) :
    ((b.build root direction excluded).1 = none ↔ root ∈ excluded) ∧
    ∀ tree, (b.build root direction excluded).1 = some tree →
      tree.direction = direction ∧ tree.truncated = false ∧
      Set.BijOn tree.pathTo {i | i < tree.size}
        {path | b.graph.SimplePath direction excluded root path} ∧
      ∀ i node, tree.node? i = some node → tree.Fits b.index i node := by
  refine ⟨build_none, fun tree made => ?_⟩
  have whole := build_whole uncapped made
  have bijective := build_bijOn built made whole
  refine ⟨?_, whole, bijective, fun i node found =>
    (build_sound built made).fits bijective.injOn found⟩
  rw [(build_some made).2, unfoldAll_direction]
  rfl

/-- Two functions that call each other, one of which calls a third. -/
def roundabout : CallGraph :=
  ((({} : CallGraph).addCall (utf8 "a") (utf8 "b")).addCall (utf8 "b") (utf8 "a")).addCall
    (utf8 "b") (utf8 "c")

theorem roundabout_built : roundabout.Built := .addCall _ _ (.addCall _ _ (.addCall _ _ .empty))

theorem build_enumerates_roundabout :
    ∃ tree, (build { graph := roundabout, index := { records := [] } } (utf8 "a") .downstream []).1
      = some tree ∧
      tree.paths = [[utf8 "a"], [utf8 "a", utf8 "b"], [utf8 "a", utf8 "b", utf8 "c"]] ∧
      Set.BijOn tree.pathTo {i | i < tree.size}
        {path | roundabout.SimplePath .downstream [] (utf8 "a") path} := by
  obtain ⟨nothing, enumerates⟩ :=
    build_enumerates { graph := roundabout, index := { records := [] } }
    roundabout_built rfl (utf8 "a") .downstream []
  rcases made :
    (build { graph := roundabout, index := { records := [] } } (utf8 "a")
      .downstream []).1 with _ | tree
  · exact absurd (nothing.mp made) List.not_mem_nil
  · obtain ⟨_, whole, bijective, _⟩ := enumerates tree made
    refine ⟨tree, rfl, ?_, bijective⟩
    rw [build_paths made whole]
    cbv

end TreeBuilder
end CodeAudit
