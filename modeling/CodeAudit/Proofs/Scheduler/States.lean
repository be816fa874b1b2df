import CodeAudit.Scheduler.RunReport
import Mathlib.Data.List.Sort

/-! The states of a report as a map. Ids stand in increasing order with one state each, so that the
list is known by its members alone. -/
namespace CodeAudit.RunReport

def Ordered (states : List (UInt64 × TaskState)) : Prop :=
  states.Pairwise (fun first second => first.1 < second.1)

instance (states : List (UInt64 × TaskState)) : Decidable (Ordered states) :=
  inferInstanceAs (Decidable (states.Pairwise (fun first second => first.1 < second.1)))

variable {states others : List (UInt64 × TaskState)} {id : UInt64} {state : TaskState}
  {entry : UInt64 × TaskState}

theorem mem_putState (ordered : Ordered states) :
    entry ∈ putState id state states ↔ entry = (id, state) ∨ (entry ∈ states ∧ entry.1 ≠ id) := by
  induction states with
  | nil => simp [putState]
  | cons head rest ih =>
    obtain ⟨above, ordered⟩ := List.pairwise_cons.mp ordered
    simp only [putState]
    split
    next first =>
      simp only [List.mem_cons]
      refine or_congr_right ⟨fun member => ⟨member, ?_⟩, And.left⟩
      rintro rfl
      rcases member with rfl | member
      · exact absurd first (UInt64.lt_irrefl _)
      · exact absurd (UInt64.lt_trans first (above entry member)) (UInt64.lt_irrefl _)
    next notFirst =>
      split
      next same =>
        subst same
        simp only [List.mem_cons]
        refine or_congr_right ⟨fun member => ⟨.inr member, ?_⟩, ?_⟩
        · intro same
          exact absurd (same ▸ above entry member) (UInt64.lt_irrefl _)
        · rintro ⟨rfl | member, other⟩
          · exact absurd rfl other
          · exact member
      next other =>
        simp only [List.mem_cons, ih ordered]
        constructor
        · rintro (rfl | new | ⟨member, apart⟩)
          · exact .inr ⟨.inl rfl, Ne.symm other⟩
          · exact .inl new
          · exact .inr ⟨.inr member, apart⟩
        · rintro (new | ⟨rfl | member, apart⟩)
          · exact .inr (.inl new)
          · exact .inl rfl
          · exact .inr (.inr ⟨member, apart⟩)

theorem putState_ordered (ordered : Ordered states) : Ordered (putState id state states) := by
  induction states with
  | nil => exact List.pairwise_singleton _ _
  | cons head rest ih =>
    obtain ⟨above, tail⟩ := List.pairwise_cons.mp ordered
    simp only [putState]
    split
    next first =>
      refine List.pairwise_cons.mpr ⟨fun other member => ?_, ordered⟩
      rcases List.mem_cons.mp member with rfl | member
      · exact first
      · exact UInt64.lt_trans first (above other member)
    next notFirst =>
      split
      next same =>
        exact List.pairwise_cons.mpr ⟨fun other member => same ▸ above other member, tail⟩
      next other =>
        refine List.pairwise_cons.mpr ⟨fun next member => ?_, ih tail⟩
        rcases (mem_putState tail).mp member with rfl | ⟨member, _⟩
        · exact UInt64.lt_of_le_of_ne (UInt64.not_lt.mp notFirst) (Ne.symm other)
        · exact above next member

theorem Ordered.ext (ordered : Ordered states) (alike : Ordered others)
    (same : ∀ entry, entry ∈ states ↔ entry ∈ others) : states = others := by
  have strict : Std.Irrefl (fun first second : UInt64 × TaskState => first.1 < second.1) :=
    ⟨fun _ => UInt64.lt_irrefl _⟩
  have asymmetric : Std.Antisymm (fun first second : UInt64 × TaskState => first.1 < second.1) :=
    ⟨fun _ _ left right => absurd (UInt64.lt_trans left right) (UInt64.lt_irrefl _)⟩
  exact List.Pairwise.eq_of_mem_iff ordered alike same

theorem Ordered.keys_nodup (ordered : Ordered states) : (states.map Prod.fst).Nodup := by
  refine List.pairwise_map.mpr (ordered.imp ?_)
  intro first second below same
  exact absurd (same ▸ below) (UInt64.lt_irrefl _)

/-- The first state of an id stays. -/
theorem mem_addState (ordered : Ordered states) {new : UInt64 × TaskState} :
    entry ∈ addState states new ↔ entry ∈ states ∨
      (entry = new ∧ ∀ known ∈ states, known.1 ≠ new.1) := by
  unfold addState
  split
  next known =>
    obtain ⟨old, member, same⟩ := List.any_eq_true.mp known
    refine ⟨.inl, ?_⟩
    rintro (member | ⟨_, unknown⟩)
    · exact member
    · exact absurd (of_decide_eq_true same) (unknown old member)
  next unknown =>
    have apart : ∀ known ∈ states, known.1 ≠ new.1 := fun old member same =>
      unknown (List.any_eq_true.mpr ⟨old, member, decide_eq_true same⟩)
    rw [mem_putState ordered]
    constructor
    · rintro (rfl | ⟨member, _⟩)
      · exact .inr ⟨rfl, apart⟩
      · exact .inl member
    · rintro (member | ⟨rfl, _⟩)
      · exact .inr ⟨member, apart entry member⟩
      · exact .inl rfl

theorem addState_ordered (ordered : Ordered states) (new : UInt64 × TaskState) :
    Ordered (addState states new) := by
  unfold addState
  split
  · exact ordered
  · exact putState_ordered ordered

theorem foldl_addState_ordered (ordered : Ordered states) (others : List (UInt64 × TaskState)) :
    Ordered (others.foldl addState states) := by
  induction others generalizing states with
  | nil => exact ordered
  | cons new rest ih => exact ih (addState_ordered ordered new)

theorem mem_foldl_addState (ordered : Ordered states) (distinct : (others.map Prod.fst).Nodup) :
    entry ∈ others.foldl addState states ↔
      entry ∈ states ∨ (entry ∈ others ∧ ∀ known ∈ states, known.1 ≠ entry.1) := by
  induction others generalizing states with
  | nil => simp
  | cons new rest ih =>
    obtain ⟨fresh, distinct⟩ := List.nodup_cons.mp distinct
    rw [List.foldl_cons, ih (addState_ordered ordered new) distinct]
    simp only [mem_addState ordered, List.mem_cons]
    constructor
    · rintro ((member | ⟨rfl, unknown⟩) | ⟨member, unknown⟩)
      · exact .inl member
      · exact .inr ⟨.inl rfl, unknown⟩
      · exact .inr ⟨.inr member, fun known old => unknown known (.inl old)⟩
    · rintro (member | ⟨rfl | member, unknown⟩)
      · exact .inl (.inl member)
      · exact .inl (.inr ⟨rfl, unknown⟩)
      · refine .inr ⟨member, ?_⟩
        rintro known (old | ⟨rfl, _⟩)
        · exact unknown known old
        · intro same
          exact fresh (same ▸ List.mem_map_of_mem member)

end CodeAudit.RunReport
