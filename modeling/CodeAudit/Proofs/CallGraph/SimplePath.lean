import CodeAudit.Proofs.CallGraph.Built
import Mathlib.Data.List.Chain
import Mathlib.Data.List.Nodup

/-! Simple paths through the calls of a graph. All that go on from a list of siblings are enumerated
by the names that may still be used, of which each step uses one. -/
namespace CodeAudit
namespace CallGraph

/-- Every name of a path is one call away from the name before it. -/
def Linked (g : CallGraph) (direction : Direction) (path : List Text) : Prop :=
  path.IsChain (fun above below => below ∈ g.related direction above)

/-- A path that begins with the root, repeats no name and holds no excluded one. -/
structure SimplePath (g : CallGraph) (direction : Direction) (excluded : List Text) (root : Text)

    (path : List Text) : Prop where
  starts : path.head? = some root
  linked : g.Linked direction path
  simple : path.Nodup
  clear : ∀ name ∈ path, name ∉ excluded

/-- The paths of two names and more that begin with a sibling and stay among the allowed names:
first the steps to the names one call away from a sibling, then what goes on from them, then the
other siblings. -/
def descents (g : CallGraph) (direction : Direction) (allowed siblings : List Text) :
    List (List Text) :=
  match siblings with
  | [] => []
  | name :: rest =>
      if _ : name ∈ allowed then
        let below := allowed.erase name
        let names := (g.related direction name).filter (· ∈ below)
        (names.map ([·]) ++ g.descents direction below names).map (name :: ·) ++
          g.descents direction allowed rest
      else []
termination_by (allowed.length, siblings.length)
decreasing_by
  · exact Prod.Lex.left _ _ (by
      have := List.length_pos_of_mem ‹name ∈ allowed›
      rw [List.length_erase_of_mem ‹name ∈ allowed›]
      omega)
  · exact Prod.Lex.right _ (Nat.lt_succ_self _)

variable {g : CallGraph} {direction : Direction} {allowed siblings path rest : List Text}
  {name root : Text}

theorem descents_nil : g.descents direction allowed [] = [] := by rw [descents]

theorem descents_cons (known : name ∈ allowed) :
    let below := allowed.erase name
    let names := (g.related direction name).filter (· ∈ below)
    g.descents direction allowed (name :: rest) =
      (names.map ([·]) ++ g.descents direction below names).map (name :: ·) ++ g.descents direction
        allowed rest := by
  rw [descents, dif_pos known]

/-- A path that stays among the allowed names and uses none of them twice. -/
structure Stays (g : CallGraph) (direction : Direction) (allowed path : List Text) : Prop where
  linked : g.Linked direction path
  simple : path.Nodup
  inside : path ⊆ allowed

theorem stays_single : g.Stays direction allowed [name] ↔ name ∈ allowed := by
  refine ⟨fun stays => stays.inside List.mem_cons_self, fun known =>
    ⟨.singleton _, by simp, by simpa⟩⟩

/-- One name is used up by the first step. -/
theorem stays_cons {next : Text} (once : allowed.Nodup) :
    g.Stays direction allowed (name :: next :: rest) ↔
      name ∈ allowed ∧ next ∈ g.related direction name ∧
        g.Stays direction (allowed.erase name) (next :: rest) := by
  have erased (other : Text) : other ∈ allowed.erase name ↔ other ≠ name ∧ other ∈ allowed :=
    once.mem_erase_iff
  constructor
  · rintro ⟨linked, simple, inside⟩
    obtain ⟨step, linked⟩ := List.isChain_cons_cons.mp linked
    obtain ⟨fresh, simple⟩ := List.nodup_cons.mp simple
    refine ⟨inside List.mem_cons_self, step, linked, simple, fun other member =>
      (erased other).mpr ⟨?_, ?_⟩⟩
    · rintro rfl
      exact fresh member
    · exact inside (List.mem_cons_of_mem _ member)
  · rintro ⟨known, step, linked, simple, inside⟩
    refine ⟨List.isChain_cons_cons.mpr ⟨step, linked⟩,
      List.nodup_cons.mpr ⟨fun member => ?_, simple⟩, ?_⟩
    · exact ((erased name).mp (inside member)).1 rfl
    · refine List.cons_subset.mpr ⟨known, fun other member => ?_⟩
      exact ((erased other).mp (inside member)).2

/-- What comes after a sibling: nothing but a name one call away, or a path on from there. -/
theorem mem_onward {below names : List Text} (known : names ⊆ below)
    (further : ∀ path, path ∈ g.descents direction below names ↔
      ∃ name next rest, path = name :: next :: rest ∧ name ∈ names ∧ g.Stays direction below path) :
    path ∈ names.map ([·]) ++ g.descents direction below names ↔
      ∃ next rest, path = next :: rest ∧ next ∈ names ∧ g.Stays direction below path := by
  rw [List.mem_append, List.mem_map, further]
  constructor
  · rintro (⟨next, member, rfl⟩ | ⟨next, after, rest, rfl, member, stays⟩)
    · exact ⟨next, [], rfl, member, stays_single.mpr (known member)⟩
    · exact ⟨next, after :: rest, rfl, member, stays⟩
  · rintro ⟨next, rest, rfl, member, stays⟩
    cases rest with
    | nil => exact .inl ⟨next, member, rfl⟩
    | cons after rest => exact .inr ⟨next, after, rest, rfl, member, stays⟩

/-- The enumeration is complete and goes nowhere else. -/
theorem mem_descents (once : allowed.Nodup) (known : siblings ⊆ allowed) (path : List Text) :
    path ∈ g.descents direction allowed siblings ↔
      ∃ name next rest, path = name :: next :: rest ∧ name ∈ siblings ∧
        g.Stays direction allowed path := by
  revert path
  fun_induction g.descents direction allowed siblings with
  | case1 => simp
  | case2 allowed name rest present below names ih further =>
    obtain ⟨_, later⟩ := List.cons_subset.mp known
    have narrower : names ⊆ below :=
      fun other member => of_decide_eq_true (List.mem_filter.mp member).2
    intro path
    rw [List.mem_append, further once later, List.mem_map]
    simp only [mem_onward narrower (ih (once.erase name) narrower)]
    constructor
    · rintro (⟨_, ⟨next, onward, rfl, member, stays⟩, rfl⟩ | ⟨first, next, onward, rfl,
        member, stays⟩)
      · refine ⟨name, next, onward, rfl, List.mem_cons_self,
          (stays_cons once).mpr ⟨present, ?_, stays⟩⟩
        exact (List.mem_filter.mp member).1
      · exact ⟨first, next, onward, rfl, List.mem_cons_of_mem _ member, stays⟩
    · rintro ⟨first, next, onward, rfl, member, stays⟩
      rcases List.mem_cons.mp member with rfl | member
      · obtain ⟨_, step, stays⟩ := (stays_cons once).mp stays
        have listed : next ∈ names :=
          List.mem_filter.mpr ⟨step, decide_eq_true (stays.inside List.mem_cons_self)⟩
        exact .inl ⟨_, ⟨next, onward, rfl, listed, stays⟩, rfl⟩
      · exact .inr ⟨first, next, onward, rfl, member, stays⟩
  | case3 allowed name rest absent => exact absurd (known List.mem_cons_self) absent

/-- No path is enumerated twice. -/
theorem descents_nodup (unrepeated : ∀ name, (g.related direction name).Nodup)
    (once : allowed.Nodup) (apart : siblings.Nodup) (known : siblings ⊆ allowed) :
    (g.descents direction allowed siblings).Nodup := by
  fun_induction g.descents direction allowed siblings with
  | case1 => exact .nil
  | case2 allowed name rest present below names ih further =>
    obtain ⟨fresh, later⟩ := List.nodup_cons.mp apart
    obtain ⟨_, others⟩ := List.cons_subset.mp known
    have narrower : names ⊆ below :=
      fun other member => of_decide_eq_true (List.mem_filter.mp member).2
    have distinct : names.Nodup := (unrepeated name).filter _
    refine List.nodup_append.mpr ⟨List.Nodup.map (List.cons_injective) ?_,
      further once later others, ?_⟩
    · refine List.nodup_append.mpr
        ⟨distinct.map (fun _ _ => by simp), ih (once.erase name) distinct narrower, ?_⟩
      rintro _ single path longer rfl
      obtain ⟨next, _, same⟩ := List.mem_map.mp single
      obtain ⟨_, _, _, rfl, _⟩ := (mem_descents (once.erase name) narrower _).mp longer
      cases same
    · -- Paths from this sibling begin with its name, and those from the others do not.
      rintro _ own path other rfl
      obtain ⟨onward, _, rfl⟩ := List.mem_map.mp own
      obtain ⟨first, next, rest, same, member, _⟩ := (mem_descents once others _).mp other
      exact fresh ((List.cons.inj same).1 ▸ member)
  | case3 => exact .nil

def clearNames (g : CallGraph) (excluded : List Text) (root : Text) : List Text :=
  root :: g.functions.filter (fun n => n ≠ root ∧ n ∉ excluded)

theorem Built.clearNames_nodup (built : g.Built) (excluded : List Text) (root : Text) :
    (g.clearNames excluded root).Nodup := by
  refine List.nodup_cons.mpr ⟨fun member => ?_, built.functions_nodup.filter _⟩
  have different := (List.mem_filter.mp member).2
  simp at different

/-- Whatever comes after the first name of a path has an entry. -/
theorem Linked.known (built : g.Built) (linked : g.Linked direction (name :: rest)) :
    rest ⊆ g.functions := by
  induction rest generalizing name with
  | nil => exact List.nil_subset _
  | cons next rest ih =>
    obtain ⟨step, linked⟩ := List.isChain_cons_cons.mp linked
    exact List.cons_subset.mpr ⟨(built.related_within direction name).2 step, ih linked⟩

/-- A path from the root stays among the names that are not excluded just if it holds none that
is. -/
theorem stays_clearNames {excluded : List Text} (built : g.Built) (clear : root ∉ excluded) :
    g.Stays direction (g.clearNames excluded root) (root :: rest) ↔
      g.SimplePath direction excluded root (root :: rest) := by
  constructor
  · rintro ⟨linked, simple, inside⟩
    refine ⟨rfl, linked, simple, fun name member => ?_⟩
    rcases List.mem_cons.mp (inside member) with rfl | listed
    · exact clear
    · exact (of_decide_eq_true (List.mem_filter.mp listed).2).2
  · rintro ⟨_, linked, simple, clear⟩
    refine ⟨linked, simple, List.cons_subset.mpr ⟨List.mem_cons_self, fun name member => ?_⟩⟩
    refine List.mem_cons_of_mem _
      (List.mem_filter.mpr ⟨linked.known built member, decide_eq_true ⟨?_, ?_⟩⟩)
    · rintro rfl
      exact (List.nodup_cons.mp simple).1 member
    · exact clear name (List.mem_cons_of_mem _ member)

def simplePaths (g : CallGraph) (direction : Direction) (excluded : List Text) (root : Text) :
    List (List Text) :=
  [root] :: g.descents direction (g.clearNames excluded root) [root]

theorem mem_simplePaths {excluded : List Text} (built : g.Built) (clear : root ∉ excluded) :
    path ∈ g.simplePaths direction excluded root ↔ g.SimplePath direction excluded root path := by
  have inside : [root] ⊆ g.clearNames excluded root := by simp [clearNames]
  rw [simplePaths, List.mem_cons, mem_descents (built.clearNames_nodup excluded root) inside]
  constructor
  · rintro (rfl | ⟨name, next, rest, rfl, member, stays⟩)
    · exact (stays_clearNames built clear).mp (stays_single.mpr List.mem_cons_self)
    · obtain rfl := List.mem_singleton.mp member
      exact (stays_clearNames built clear).mp stays
  · intro simple
    obtain ⟨rest, rfl⟩ := List.head?_eq_some_iff.mp simple.starts
    cases rest with
    | nil => exact .inl rfl
    | cons next rest =>
      exact .inr ⟨root, next, rest, rfl, List.mem_cons_self,
        (stays_clearNames built clear).mpr simple⟩

theorem simplePaths_nodup (built : g.Built) (excluded : List Text) :
    (g.simplePaths direction excluded root).Nodup := by
  have inside : [root] ⊆ g.clearNames excluded root := by simp [clearNames]
  have once := built.clearNames_nodup excluded root
  refine List.nodup_cons.mpr ⟨fun member => ?_, ?_⟩
  · obtain ⟨_, _, _, same, _⟩ := (mem_descents once inside _).mp member
    cases same
  · exact descents_nodup (built.related_nodup direction) once (List.nodup_singleton root) inside

end CallGraph
end CodeAudit
