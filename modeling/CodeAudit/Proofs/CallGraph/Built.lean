import CodeAudit.CallGraph

/-! Graphs as they come about, from functions and calls added in any order. Entries and name sets
stay in strict byte order, and whatever is related to a function has an entry of its own. -/
namespace CodeAudit

namespace NameSet
variable {name other : Text} {names : NameSet}

theorem mem_insert : other ∈ names.insert name ↔ other = name ∨ other ∈ names := by
  induction names with
  | nil => simp [insert]
  | cons first rest ih =>
    simp only [insert]
    split
    · exact List.mem_cons
    · split
      next same =>
        subst same
        simp only [List.mem_cons, ← or_assoc, or_self]
      next => simp only [List.mem_cons, ih, or_left_comm]

theorem insert_ordered (ordered : names.Pairwise (· < ·)) :
    (names.insert name).Pairwise (· < ·) := by
  induction names with
  | nil => exact List.pairwise_singleton _ _
  | cons first rest ih =>
    obtain ⟨above, tail⟩ := List.pairwise_cons.mp ordered
    simp only [insert]
    split
    next below =>
      refine List.pairwise_cons.mpr ⟨fun other member => ?_, ordered⟩
      rcases List.mem_cons.mp member with rfl | member
      · exact below
      · exact List.lt_trans below (above other member)
    next notBelow =>
      split
      · exact ordered
      next different =>
        refine List.pairwise_cons.mpr ⟨fun other member => ?_, ih tail⟩
        rcases mem_insert.mp member with rfl | member
        · exact Std.lt_of_le_of_ne notBelow (Ne.symm different)
        · exact above other member

theorem nodup (ordered : names.Pairwise (· < ·)) : names.Nodup := by
  refine ordered.imp (fun {first second} below same => ?_)
  exact List.lt_irrefl _ (same ▸ below)

def Within (known : List Text) (names : NameSet) : Prop := names.Pairwise (· < ·) ∧ names ⊆ known

theorem Within.insert {known : List Text} (within : names.Within known) (present : name ∈ known) :
    (names.insert name).Within known := by
  refine ⟨insert_ordered within.1, fun other member => ?_⟩
  rcases mem_insert.mp member with rfl | member
  · exact present
  · exact within.2 member

end NameSet

namespace CallGraph

/-- A graph with the functions and calls that have been added to it. -/
inductive Built : CallGraph → Prop where
  | empty : Built {}
  | addFunction (name : Text) : Built g → Built (g.addFunction name)
  | addCall (caller callee : Text) : Built g → Built (g.addCall caller callee)

def Entry.Within (known : List Text) (e : Entry) : Prop :=
  ∀ direction, (e.related direction).Within known

variable {name other : Text} {entries : List Entry} {e : Entry}

theorem mem_insertEntry (member : e ∈ insertEntry name entries) : e = { name } ∨ e ∈ entries := by
  induction entries with
  | nil => exact .inl (List.mem_singleton.mp member)
  | cons first rest ih =>
    simp only [insertEntry] at member
    split at member
    · exact List.mem_cons.mp member
    · split at member
      · exact .inr member
      · rcases List.mem_cons.mp member with rfl | member
        · exact .inr List.mem_cons_self
        · exact (ih member).imp_right (List.mem_cons_of_mem _)

/-- The names of the entries after an insertion. -/
theorem map_insertEntry : (insertEntry name entries).map Entry.name =
    NameSet.insert name (entries.map Entry.name) := by
  induction entries with
  | nil => rfl
  | cons first rest ih =>
    simp only [insertEntry, List.map_cons, NameSet.insert]
    split
    · rfl
    · split
      · rfl
      · rw [List.map_cons, ih]

theorem map_modifyEntry {change : Entry → Entry} (named : ∀ e, (change e).name = e.name) :
    (modifyEntry name change entries).map Entry.name = entries.map Entry.name := by
  simp only [modifyEntry, List.map_map]
  refine List.map_congr_left (fun e _ => ?_)
  simp only [Function.comp_apply]
  split
  · exact named e
  · rfl

theorem modifyEntry_within {known : List Text} {change : Entry → Entry}
    (within : ∀ e ∈ entries, e.Within known)
    (keeps : ∀ e, e.Within known → (change e).Within known) :
    ∀ e ∈ modifyEntry name change entries, e.Within known := by
  intro e member
  obtain ⟨before, inside, rfl⟩ := List.mem_map.mp member
  split
  · exact keeps before (within before inside)
  · exact within before inside

/-- Entries in order, with nothing in their name sets but names of entries. -/
structure Sound (g : CallGraph) : Prop where
  ordered : g.functions.Pairwise (· < ·)
  within : ∀ e ∈ g.entries, e.Within g.functions

variable {g : CallGraph}

theorem functions_addFunction : (g.addFunction name).functions = NameSet.insert name g.functions :=
  map_insertEntry

theorem Sound.addFunction (sound : g.Sound) (name : Text) : (g.addFunction name).Sound := by
  refine ⟨?_, fun e member => ?_⟩
  · rw [functions_addFunction]
    exact NameSet.insert_ordered sound.ordered
  · rcases mem_insertEntry member with rfl | member
    · intro direction
      cases direction <;> exact ⟨.nil, nofun⟩
    · intro direction
      obtain ⟨inOrder, known⟩ := sound.within e member direction
      refine ⟨inOrder, fun other present => ?_⟩
      rw [functions_addFunction]
      exact NameSet.mem_insert.mpr (.inr (known present))

theorem functions_addCall {caller callee : Text} (different : caller ≠ callee) :
    (g.addCall caller callee).functions =
      ((g.addFunction caller).addFunction callee).functions := by
  simp only [addCall, if_neg different, functions]
  rw [map_modifyEntry, map_modifyEntry]
  all_goals exact fun _ => rfl

theorem Sound.addCall (sound : g.Sound) (caller callee : Text) :
    (g.addCall caller callee).Sound := by
  by_cases different : caller = callee
  · simpa only [CallGraph.addCall, if_pos different] using sound
  · have ends := (sound.addFunction caller).addFunction callee
    have calleeKnown : callee ∈ ((g.addFunction caller).addFunction callee).functions := by
      rw [functions_addFunction]
      exact NameSet.mem_insert.mpr (.inl rfl)
    have callerKnown : caller ∈ ((g.addFunction caller).addFunction callee).functions := by
      rw [functions_addFunction, functions_addFunction]
      exact NameSet.mem_insert.mpr (.inr (NameSet.mem_insert.mpr (.inl rfl)))
    refine ⟨functions_addCall different ▸ ends.ordered, ?_⟩
    rw [functions_addCall different]
    simp only [CallGraph.addCall, if_neg different]
    refine modifyEntry_within (modifyEntry_within ends.within (fun e within => ?_))
      (fun e within => ?_)
    · intro direction
      cases direction with
      | upstream => exact within .upstream
      | downstream => exact (within .downstream).insert calleeKnown
    · intro direction
      cases direction with
      | upstream => exact (within .upstream).insert callerKnown
      | downstream => exact within .downstream

theorem Built.sound (built : g.Built) : g.Sound := by
  induction built with
  | empty => exact ⟨.nil, nofun⟩
  | addFunction name _ ih => exact ih.addFunction name
  | addCall caller callee _ ih => exact ih.addCall caller callee

variable {direction : Direction}

theorem Built.related_within (built : g.Built) (direction : Direction) (name : Text) :
    (g.related direction name).Within g.functions := by
  unfold related
  rcases found : g.entry? name with _ | e
  · exact ⟨.nil, nofun⟩
  · exact built.sound.within e (List.mem_of_find?_eq_some found) direction

theorem Built.functions_nodup (built : g.Built) : g.functions.Nodup :=
  NameSet.nodup built.sound.ordered

theorem Built.related_nodup (built : g.Built) (direction : Direction) (name : Text) :
    (g.related direction name).Nodup := NameSet.nodup (built.related_within direction name).1

end CallGraph
end CodeAudit
