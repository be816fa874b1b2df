import CodeAudit.Proofs.CallGraph.Calls
import CodeAudit.Proofs.CallTree.Enumeration
import Mathlib.Data.List.Count

/-! Trees upwards and downwards mirror each other. Read backwards, a simple path from one name down
to another is a simple path from the other up to the first, so the one is found below the other as
often as the other above it. -/
namespace CodeAudit

def Direction.opposite : Direction → Direction
  | upstream => downstream
  | downstream => upstream

namespace CallGraph
variable {g : CallGraph} {direction : Direction} {excluded path : List Text}
  {first last near far : Text}

@[simp] theorem opposite_opposite :
    direction.opposite.opposite = direction := by cases direction <;> rfl

theorem Built.related_opposite (built : g.Built) :
    near ∈ g.related direction.opposite far ↔ far ∈ g.related direction near := by
  cases direction with
  | downstream => exact built.dual
  | upstream => exact built.dual.symm

theorem Linked.reverse (built : g.Built) (linked : g.Linked direction path) :
    g.Linked direction.opposite path.reverse := by
  apply List.isChain_reverse.mpr
  apply linked.imp
  intro above below step
  exact built.related_opposite.mpr step

/-- Which names a path holds does not depend on the way it is read. -/
theorem SimplePath.reverse (built : g.Built) (simple : g.SimplePath direction excluded first path)
    (ends : path.getLast? = some last) :
    g.SimplePath direction.opposite excluded last path.reverse where
  starts := by rw [List.head?_reverse, ends]
  linked := simple.linked.reverse built
  simple := List.nodup_reverse.mpr simple.simple
  clear := fun name member => simple.clear name (List.mem_reverse.mp member)

/-- The simple paths of a length from one name to another. -/
def pathsTo (g : CallGraph) (direction : Direction) (excluded : List Text) (first last : Text)
    (length : Nat) :
    List (List Text) :=
  (g.simplePaths direction excluded first).filter
    (fun path => path.getLast? = some last ∧ path.length = length)

variable {length : Nat}

theorem mem_pathsTo (built : g.Built) (clear : first ∉ excluded) :
    path ∈ g.pathsTo direction excluded first last length ↔
      g.SimplePath direction excluded first path ∧ path.getLast? = some last ∧
        path.length = length := by
  rw [pathsTo, List.mem_filter, mem_simplePaths built clear, decide_eq_true_iff]

theorem mem_pathsTo_reverse (built : g.Built) (clear : first ∉ excluded) (free : last ∉ excluded)
    (listed : path ∈ g.pathsTo direction excluded first last length) :
    path.reverse ∈ g.pathsTo direction.opposite excluded last first length := by
  obtain ⟨simple, ends, long⟩ := (mem_pathsTo built clear).mp listed
  apply (mem_pathsTo built free).mpr
  refine ⟨simple.reverse built ends, ?_, ?_⟩
  · rw [List.getLast?_reverse, simple.starts]
  · rw [List.length_reverse, long]

/-- Reading backwards is a bijection between the paths in one direction and those in the other. -/
theorem Built.pathsTo_opposite (built : g.Built) (direction : Direction) (clear : first ∉ excluded)
    (free : last ∉ excluded) :
    (g.pathsTo direction.opposite excluded last first length).Perm
      ((g.pathsTo direction excluded first last length).map List.reverse) := by
  have there : (g.pathsTo direction.opposite excluded last first length).Nodup :=
    (simplePaths_nodup built excluded).filter _
  have back : ((g.pathsTo direction excluded first last length).map List.reverse).Nodup :=
    ((simplePaths_nodup built excluded).filter _).map List.reverse_injective
  apply (List.perm_ext_iff_of_nodup there back).mpr
  intro path
  rw [List.mem_map]
  constructor
  · intro listed
    have mirrored := mem_pathsTo_reverse built free clear listed
    rw [opposite_opposite] at mirrored
    exact ⟨path.reverse, mirrored, List.reverse_reverse path⟩
  · rintro ⟨mirrored, listed, rfl⟩
    exact mem_pathsTo_reverse built clear free listed

end CallGraph

namespace CallTree
variable {t : CallTree} {index : FunctionIndex}

def occurrences (t : CallTree) (name : Text) (depth : Nat) : Nat :=
  t.nodes.toList.countP (fun node => node.name = name ∧ node.depth = depth)

/-- The name and the depth of a node are the last name of the way to it and its length. -/
theorem Sound.occurrences (sound : t.Sound index) (name : Text) (depth : Nat) :
    t.occurrences name depth =
      t.paths.countP (fun path => path.getLast? = some name ∧ path.length = depth + 1) := by
  have counted : t.occurrences name depth =
      ((List.range t.size).map t.node?).countP
        (Option.any (fun node => node.name = name ∧ node.depth = depth)) := by
    rw [nodes_range, List.countP_map]
    rfl
  rw [counted, paths, List.countP_map, List.countP_map]
  apply List.countP_congr
  intro i member
  obtain ⟨node, found⟩ := node?_of_lt (List.mem_range.mp member)
  have deep := sound.depth found
  simp only [Function.comp_apply, found, Option.any_some, decide_eq_true_eq,
    pathTo_last found, ← deep,
    Option.some.injEq, Nat.add_right_cancel_iff]

end CallTree

namespace TreeBuilder
variable {b : TreeBuilder} {tree : CallTree} {direction : Direction} {excluded : List Text}
  {first last : Text}

theorem build_clear (b : TreeBuilder) (direction : Direction) (clear : first ∉ excluded) :
    ∃ tree, (b.build first direction excluded).1 = some tree := by
  apply Option.ne_none_iff_exists'.mp
  intro nothing
  exact clear (build_none.mp nothing)

/-- Without a cap, a name is found in a tree once for each simple path to it. -/
theorem build_occurrences (built : b.graph.Built) (uncapped : b.maxNodes = 0)
    (made : (b.build first direction excluded).1 = some tree) (depth : Nat) :
    tree.occurrences last depth =
      (b.graph.pathsTo direction excluded first last (depth + 1)).length := by
  rw [(build_sound built made).occurrences, build_paths made (build_whole uncapped made),
    CallGraph.pathsTo,
    List.countP_eq_length_filter]

/-- As often as a function is found at a depth below another, so often is the other found at that
depth above it. -/
theorem build_mirrors (b : TreeBuilder) (built : b.graph.Built) (uncapped : b.maxNodes = 0)
    (excluded : List Text) (caller callee : Text) (clear : caller ∉ excluded)
    (free : callee ∉ excluded) (depth : Nat) :
    ∃ below above, (b.build caller .downstream excluded).1 = some below ∧
      (b.build callee .upstream excluded).1 = some above ∧
      below.occurrences callee depth = above.occurrences caller depth := by
  obtain ⟨below, down⟩ := b.build_clear .downstream clear
  obtain ⟨above, up⟩ := b.build_clear .upstream free
  refine ⟨below, above, down, up, ?_⟩
  have mirrored : (b.graph.pathsTo .upstream excluded callee caller (depth + 1)).Perm
      ((b.graph.pathsTo .downstream excluded caller callee (depth + 1)).map List.reverse) :=
    built.pathsTo_opposite .downstream clear free
  calc below.occurrences callee depth
    _ = (b.graph.pathsTo .downstream excluded caller callee (depth + 1)).length :=
      build_occurrences built uncapped down depth
    _ = ((b.graph.pathsTo .downstream excluded caller callee (depth + 1)).map
      List.reverse).length :=
      List.length_map _ |>.symm
    _ = (b.graph.pathsTo .upstream excluded callee caller (depth + 1)).length :=
      mirrored.length_eq.symm
    _ = above.occurrences caller depth := (build_occurrences built uncapped up depth).symm

/-- A function that is called by two others, which have a caller in common. -/
def diamond : CallGraph :=
  ({} : CallGraph).addCalls [(utf8 "a", utf8 "b"), (utf8 "a", utf8 "c"), (utf8 "b", utf8 "d"),
    (utf8 "c", utf8 "d")]

theorem diamond_built : diamond.Built := CallGraph.Built.empty.addCalls _

theorem build_mirrors_diamond :
    ∃ below above,
      (build { graph := diamond, index := { records := [] } } (utf8 "a") .downstream [utf8 "x"]).1 =
        some below ∧
      (build { graph := diamond, index := { records := [] } } (utf8 "d") .upstream [utf8 "x"]).1 =
        some above ∧
      below.occurrences (utf8 "d") 2 = 2 ∧ above.occurrences (utf8 "a") 2 = 2 := by
  obtain ⟨below, above, down, up, same⟩ :=
    build_mirrors { graph := diamond, index := { records := [] } }
    diamond_built rfl [utf8 "x"] (utf8 "a") (utf8 "d") (by decide) (by decide) 2
  have twice : below.occurrences (utf8 "d") 2 = 2 := by
    rw [build_occurrences diamond_built rfl down]
    cbv
  exact ⟨below, above, down, up, twice, same ▸ twice⟩

end TreeBuilder
end CodeAudit
