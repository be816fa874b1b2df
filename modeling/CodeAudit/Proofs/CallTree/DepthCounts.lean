import CodeAudit.CallTree.Excerpt
import Mathlib.Algebra.GroupWithZero.Nat
import Mathlib.Data.List.Sort

/-! Counts by depth. They stand in increasing depth without zeros, so that two of them agree as soon
as they give every depth the same count, and adding and merging are sums at every depth. -/
namespace CodeAudit
namespace DepthCounts

def count (counts : DepthCounts) (depth : Nat) : Nat :=
  ((counts.filter (fun entry => entry.1 = depth)).map Prod.snd).sum

def total (counts : DepthCounts) : Nat := (counts.map Prod.snd).sum

structure Proper (counts : DepthCounts) : Prop where
  ordered : counts.Pairwise (fun shallow deep => shallow.1 < deep.1)
  positive : ∀ entry ∈ counts, 0 < entry.2

variable {counts others : DepthCounts} {depth other n : Nat} {entry : Nat × Nat}

@[simp] theorem count_nil : count [] depth = 0 := rfl

theorem count_cons : count (entry :: counts) depth =
    (if entry.1 = depth then entry.2 else 0) + count counts depth := by
  unfold count
  by_cases same : entry.1 = depth
  · simp [same]
  · simp [same]

theorem proper_nil : Proper [] := ⟨.nil, nofun⟩

theorem Proper.tail (proper : Proper (entry :: counts)) : Proper counts :=
  ⟨proper.ordered.tail, fun other listed => proper.positive other (List.mem_cons_of_mem _ listed)⟩

theorem count_eq_zero (absent : ∀ entry ∈ counts, entry.1 ≠ depth) : counts.count depth = 0 := by
  have none : counts.filter (fun entry => entry.1 = depth) = [] := by simpa using absent
  simp [count, none]

theorem Proper.mem_iff (proper : Proper counts) :
    (depth, n) ∈ counts ↔ 0 < n ∧ n = counts.count depth := by
  induction counts with
  | nil => simp only [List.not_mem_nil, count_nil, false_iff]; omega
  | cons first rest ih =>
    have above := (List.pairwise_cons.mp proper.ordered).1
    have some := proper.positive first List.mem_cons_self
    rw [List.mem_cons, ih proper.tail, count_cons]
    by_cases here : first.1 = depth
    · -- The depths that follow are greater, so the first entry is the only one.
      have zero : count rest depth = 0 :=
        count_eq_zero (fun entry listed => by have := above entry listed; omega)
      rw [if_pos here, zero, Prod.ext_iff]
      constructor
      · rintro (⟨_, rfl⟩ | ⟨positive, rfl⟩)
        · exact ⟨some, rfl⟩
        · exact absurd positive (Nat.lt_irrefl 0)
      · rintro ⟨_, same⟩
        exact .inl ⟨here.symm, same⟩
    · have other : (depth, n) ≠ first := by rintro rfl; exact here rfl
      simp [here, other]

theorem Proper.ext (proper : Proper counts) (alike : Proper others)
    (same : ∀ depth, counts.count depth = others.count depth) : counts = others := by
  have strict : Std.Irrefl (fun shallow deep : Nat × Nat => shallow.1 < deep.1) :=
    ⟨fun _ => Nat.lt_irrefl _⟩
  have asymmetric : Std.Antisymm (fun shallow deep : Nat × Nat => shallow.1 < deep.1) :=
    ⟨fun _ _ left right => absurd (Nat.lt_trans left right) (Nat.lt_irrefl _)⟩
  apply List.Pairwise.eq_of_mem_iff proper.ordered alike.ordered
  rintro ⟨depth, n⟩
  rw [proper.mem_iff, alike.mem_iff, same]

theorem count_add : (counts.add depth n).count other = counts.count other + if depth = other then n
    else 0 := by
  induction counts with
  | nil => simp [add, count_cons]
  | cons first rest ih =>
    obtain ⟨d, m⟩ := first
    rw [add]
    split
    · simp only [count_cons]
      omega
    · split
      next same =>
        subst same
        simp only [count_cons]
        split <;> omega
      next => rw [count_cons, ih, count_cons, Nat.add_assoc]

theorem total_add : (counts.add depth n).total = counts.total + n := by
  unfold total
  induction counts with
  | nil => simp [add]
  | cons first rest ih =>
    obtain ⟨d, m⟩ := first
    rw [add]
    split
    · simp only [List.map_cons, List.sum_cons]
      omega
    · split
      · simp only [List.map_cons, List.sum_cons]
        omega
      · simp only [List.map_cons, List.sum_cons, ih]
        omega

theorem mem_add (listed : entry ∈ counts.add depth n) :
    entry ∈ counts ∨ entry.1 = depth ∧ n ≤ entry.2 := by
  induction counts with
  | nil =>
    obtain rfl := List.mem_singleton.mp listed
    exact .inr ⟨rfl, Nat.le_refl n⟩
  | cons first rest ih =>
    obtain ⟨d, m⟩ := first
    rw [add] at listed
    split at listed
    · rcases List.mem_cons.mp listed with rfl | listed
      · exact .inr ⟨rfl, Nat.le_refl n⟩
      · exact .inl listed
    · split at listed
      next same =>
        rcases List.mem_cons.mp listed with rfl | listed
        · exact .inr ⟨same.symm, Nat.le_add_left n m⟩
        · exact .inl (List.mem_cons_of_mem _ listed)
      next =>
        rcases List.mem_cons.mp listed with rfl | listed
        · exact .inl List.mem_cons_self
        · exact (ih listed).imp_left (List.mem_cons_of_mem _)

theorem Proper.add (proper : Proper counts) (some : 0 < n) : Proper (counts.add depth n) := by
  constructor
  · have ordered := proper.ordered
    clear proper
    induction counts with
    | nil => exact List.pairwise_singleton _ _
    | cons first rest ih =>
      obtain ⟨d, m⟩ := first
      obtain ⟨above, tail⟩ := List.pairwise_cons.mp ordered
      rw [DepthCounts.add]
      split
      next before =>
        apply List.pairwise_cons.mpr
        refine ⟨fun entry listed => ?_, ordered⟩
        rcases List.mem_cons.mp listed with rfl | listed
        · exact before
        · exact Nat.lt_trans before (above entry listed)
      next =>
        split
        · exact List.pairwise_cons.mpr ⟨above, tail⟩
        · apply List.pairwise_cons.mpr
          refine ⟨fun entry listed => ?_, ih tail⟩
          rcases mem_add listed with known | ⟨new, _⟩
          · exact above entry known
          · change d < entry.1
            omega
  · intro entry listed
    rcases mem_add listed with known | ⟨_, least⟩
    · exact proper.positive entry known
    · omega

theorem count_merge : (counts.merge others).count depth =
    counts.count depth + others.count depth := by
  unfold merge
  induction others generalizing counts with
  | nil => rfl
  | cons first rest ih =>
    rw [List.foldl_cons, ih, count_add, count_cons, Nat.add_assoc]

theorem Proper.merge (proper : Proper counts) (alike : Proper others) :
    Proper (counts.merge others) := by
  unfold DepthCounts.merge
  induction others generalizing counts with
  | nil => exact proper
  | cons first rest ih =>
    have some := alike.positive first List.mem_cons_self
    exact ih (proper.add some) alike.tail

theorem Proper.nil_merge (proper : Proper counts) : DepthCounts.merge [] counts = counts := by
  apply (proper_nil.merge proper).ext proper
  intro depth
  rw [count_merge, count_nil, Nat.zero_add]

theorem Proper.within (proper : Proper counts) (limit : Nat) :
    Proper (counts.filter (fun entry => entry.1 ≤ limit)) :=
  ⟨proper.ordered.filter _, fun entry listed =>
    proper.positive entry (List.mem_of_mem_filter listed)⟩

theorem count_within (limit : Nat) :
    count (counts.filter (fun entry => entry.1 ≤ limit)) depth = if depth ≤ limit then
      counts.count depth else 0 := by
  induction counts with
  | nil => simp
  | cons first rest ih =>
    by_cases shallow : first.1 ≤ limit
    · rw [List.filter_cons_of_pos (by simpa using shallow), count_cons, ih, count_cons]
      split <;> split <;> omega
    · rw [List.filter_cons_of_neg (by simpa using shallow), ih, count_cons]
      split
      next => rw [if_neg (by omega), Nat.zero_add]
      next => rfl

/-! ### Counting records one by one -/

def tally {α : Type} (counts : DepthCounts) (read : List (Nat × α)) : DepthCounts :=
  read.foldl (fun acc (depth, _) => acc.add depth 1) counts

variable {α : Type} {read : List (Nat × α)}

theorem count_tally : (counts.tally read).count depth =
    counts.count depth + read.countP (fun entry => entry.1 = depth) := by
  unfold tally
  induction read generalizing counts with
  | nil => rfl
  | cons first rest ih =>
    rw [List.foldl_cons, ih, count_add, List.countP_cons]
    simp only [decide_eq_true_eq]
    omega

theorem total_tally : (counts.tally read).total = counts.total + read.length := by
  unfold tally
  induction read generalizing counts with
  | nil => rfl
  | cons first rest ih =>
    rw [List.foldl_cons, ih, total_add, List.length_cons]
    omega

theorem Proper.tally (proper : Proper counts) : Proper (counts.tally read) := by
  unfold DepthCounts.tally
  induction read generalizing counts with
  | nil => exact proper
  | cons first rest ih => exact ih (proper.add Nat.one_pos)

end DepthCounts
end CodeAudit
