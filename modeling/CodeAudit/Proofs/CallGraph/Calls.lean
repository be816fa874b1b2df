import CodeAudit.Proofs.CallGraph.Built
import Mathlib.Data.List.Nodup
import Mathlib.Data.List.Sort

/-! A graph as a relation. It is known by its functions and by who calls whom, so that graphs that
agree on these are the same, in whatever order they were built; its count of calls is the number of
pairs that are related. -/
namespace CodeAudit

namespace NameSet
variable {names others : NameSet}

theorem ext (ordered : names.Pairwise (· < ·)) (alike : others.Pairwise (· < ·))
    (same : ∀ name, name ∈ names ↔ name ∈ others) : names = others := by
  have strict : Std.Irrefl (fun first second : Text => first < second) :=
    ⟨fun _ => List.lt_irrefl _⟩
  have asymmetric : Std.Antisymm (fun first second : Text => first < second) :=
    ⟨fun _ _ left right => absurd (List.lt_trans left right) (List.lt_irrefl _)⟩
  exact List.Pairwise.eq_of_mem_iff ordered alike same

end NameSet

namespace CallGraph
variable {g h : CallGraph} {e : Entry} {entries : List Entry} {name other caller callee : Text}
  {direction : Direction}

/-! ### Looking up entries -/

theorem mem_functions : name ∈ g.functions ↔ ∃ e ∈ g.entries, e.name = name := List.mem_map

theorem entry?_name (found : g.entry? name = some e) : e.name = name := by
  simpa using List.find?_some found

theorem entry?_isSome : (g.entry? name).isSome ↔ name ∈ g.functions := by
  rw [ entry?, List.find?_isSome, mem_functions]
  simp only [decide_eq_true_eq]

theorem related_absent (absent : name ∉ g.functions) : g.related direction name = [] := by
  rw [← entry?_isSome, Option.not_isSome_iff_eq_none] at absent
  rw [related, absent]
  rfl

theorem Sound.entry?_self (sound : g.Sound) (member : e ∈ g.entries) :
    g.entry? e.name = some e := by
  obtain ⟨found, present⟩ :=
    Option.isSome_iff_exists.mp (entry?_isSome.mpr (mem_functions.mpr ⟨e, member, rfl⟩))
  have once : (g.entries.map Entry.name).Nodup := NameSet.nodup sound.ordered
  rw [present, List.inj_on_of_nodup_map once (List.mem_of_find?_eq_some present) member
    (entry?_name present)]

theorem Sound.related_self (sound : g.Sound) (member : e ∈ g.entries) :
    g.related direction e.name = e.related direction := by
  rw [related, sound.entry?_self member]
  rfl

theorem Sound.related_ordered (sound : g.Sound) (direction : Direction) (name : Text) :
    (g.related direction name).Pairwise (· < ·) := by
  by_cases known : name ∈ g.functions
  · obtain ⟨e, member, rfl⟩ := mem_functions.mp known
    rw [sound.related_self member]
    exact (sound.within e member direction).1
  · rw [related_absent known]
    exact .nil

/-- The entries are what is known of the functions. -/
theorem Sound.entries_eq (sound : g.Sound) : g.entries = g.functions.map (fun name =>
    { name, callers := g.related .upstream name, callees := g.related .downstream name }) := by
  rw [functions, List.map_map]
  refine (List.map_id _).symm.trans (List.map_congr_left (fun e member => ?_))
  simp only [Function.comp_apply, sound.related_self member, Entry.related, id]

/-- Graphs with the same functions and the same calls have the same entries. -/
theorem Sound.ext (sound : g.Sound) (other : h.Sound)
    (functions : ∀ name, name ∈ g.functions ↔ name ∈ h.functions)
    (related : ∀ direction name far, far ∈ g.related direction name ↔
      far ∈ h.related direction name) :
    g.entries = h.entries := by
  have names : g.functions = h.functions := NameSet.ext sound.ordered other.ordered functions
  have alike (direction : Direction) (name : Text) : g.related direction name =
      h.related direction name :=
    NameSet.ext (sound.related_ordered direction name) (other.related_ordered direction name)
      (related direction name)
  rw [sound.entries_eq, other.entries_eq, names]
  simp only [alike]

/-! ### Adding functions and calls -/

/-- A known name keeps its entry, and another gets an empty one. -/
theorem insertEntry_mem (ordered : (entries.map Entry.name).Pairwise (· < ·)) :
    e ∈ insertEntry name entries ↔ e ∈ entries ∨
      (name ∉ entries.map Entry.name ∧ e = { name }) := by
  induction entries with
  | nil => simp [insertEntry]
  | cons first rest ih =>
    obtain ⟨above, tail⟩ := List.pairwise_cons.mp ordered
    simp only [insertEntry, List.map_cons, List.mem_cons, not_or]
    split
    next below =>
      have fresh : name ∉ rest.map Entry.name :=
        fun member => List.lt_irrefl _ (List.lt_trans below (above name member))
      have different : name ≠ first.name := by
        rintro rfl
        exact List.lt_irrefl _ below
      simp only [List.mem_cons, different, fresh, not_false_eq_true, and_self, true_and]
      exact or_comm
    next =>
      split
      next same => simp [same]
      next different =>
        simp only [List.mem_cons, ih tail, different, not_false_eq_true, true_and, or_assoc]

theorem Sound.related_addFunction (sound : g.Sound) (name : Text) (direction : Direction)
    (other : Text) :
    (g.addFunction name).related direction other = g.related direction other := by
  have added := sound.addFunction name
  by_cases known : other ∈ g.functions
  · obtain ⟨e, member, rfl⟩ := mem_functions.mp known
    rw [added.related_self ((insertEntry_mem sound.ordered).mpr (.inl member)),
      sound.related_self member]
  · rw [related_absent known]
    by_cases new : other ∈ (g.addFunction name).functions
    · obtain ⟨e, member, rfl⟩ := mem_functions.mp new
      rw [added.related_self member]
      rcases (insertEntry_mem sound.ordered).mp member with member | ⟨_, rfl⟩
      · exact absurd (mem_functions.mpr ⟨e, member, rfl⟩) known
      · cases direction <;> rfl
    · exact related_absent new

theorem mem_functions_addFunction : other ∈ (g.addFunction name).functions ↔
    other = name ∨ other ∈ g.functions := by
  rw [functions_addFunction, NameSet.mem_insert]

theorem mem_functions_addCall (different : caller ≠ callee) :
    name ∈ (g.addCall caller callee).functions ↔ name = caller ∨ name = callee ∨
      name ∈ g.functions := by
  rw [functions_addCall different, mem_functions_addFunction, mem_functions_addFunction,
    or_left_comm]

theorem addCall_self (name : Text) : g.addCall name name = g := if_pos rfl

/-- Changing one entry changes what is found under its name. -/
theorem find_modifyEntry {change : Entry → Entry} (named : ∀ e, (change e).name = e.name) :
    (modifyEntry name change entries).find? (fun e => e.name = other) =
      (entries.find? (fun e => e.name = other)).map (fun e => if e.name = name then change e
        else e) := by
  rw [modifyEntry, List.find?_map]
  refine congrArg (Option.map _) (congrArg (List.find? · entries) (funext (fun e => ?_)))
  simp only [Function.comp_apply]
  split
  · rw [named]
  · rfl

def Entry.addCall (caller callee : Text) (e : Entry) : Entry :=
  { e with
    callees := if e.name = caller then e.callees.insert callee else e.callees
    callers := if e.name = callee then e.callers.insert caller else e.callers }

theorem entry?_addCall (different : caller ≠ callee) : entry? (g.addCall caller callee) name =
    ( entry? ((g.addFunction caller).addFunction callee) name).map
      (Entry.addCall caller callee) := by
  simp only [addCall, if_neg different, entry?]
  rw [find_modifyEntry, find_modifyEntry, Option.map_map]
  · refine congrArg (Option.map · _) (funext (fun e => ?_))
    simp only [Function.comp_apply, Entry.addCall]
    split <;> split <;> rfl
  all_goals exact fun _ => rfl

/-- The ends of an added call have entries. -/
theorem Sound.related_addCall (sound : g.Sound) (different : caller ≠ callee)
    (direction : Direction) (name : Text) :
    (g.addCall caller callee).related direction name = match direction with
      | .downstream => if name = caller then (g.related .downstream name).insert callee
        else g.related .downstream name
      | .upstream => if name = callee then (g.related .upstream name).insert caller
          else g.related .upstream name := by
  have ends := sound.addFunction caller
  have kept (direction : Direction) : g.related direction name =
      ((g.addFunction caller).addFunction callee).related direction name := by
    rw [ends.related_addFunction, sound.related_addFunction]
  rw [kept, kept]
  simp only [related, entry?_addCall different]
  rcases found : entry? ((g.addFunction caller).addFunction callee) name with _ | e
  · have absent : name ∉ ((g.addFunction caller).addFunction callee).functions := by
      rw [← entry?_isSome, found]
      nofun
    simp only [mem_functions_addFunction, not_or] at absent
    cases direction <;> simp [absent]
  · obtain rfl := entry?_name found
    cases direction <;> rfl

theorem Sound.mem_callees_addCall (sound : g.Sound) (different : caller ≠ callee) :
    other ∈ (g.addCall caller callee).related .downstream name ↔
      other ∈ g.related .downstream name ∨ (name = caller ∧ other = callee) := by
  rw [sound.related_addCall different]
  by_cases same : name = caller <;> simp [same, NameSet.mem_insert, or_comm]

theorem Sound.mem_callers_addCall (sound : g.Sound) (different : caller ≠ callee) :
    other ∈ (g.addCall caller callee).related .upstream name ↔
      other ∈ g.related .upstream name ∨ (name = callee ∧ other = caller) := by
  rw [sound.related_addCall different]
  by_cases same : name = callee <;> simp [same, NameSet.mem_insert, or_comm]

/-- A function that calls itself does not call anybody new. -/
theorem Sound.called_addCall (sound : g.Sound) (first second : Text) :
    callee ∈ (g.addCall first second).related .downstream caller ↔
      callee ∈ g.related .downstream caller ∨
        (caller ≠ callee ∧ (caller, callee) = (first, second)) := by
  by_cases different : first = second
  · subst different
    rw [addCall_self]
    refine (or_iff_left ?_).symm
    rintro ⟨apart, same⟩
    obtain ⟨rfl, rfl⟩ := Prod.mk.inj same
    exact apart rfl
  · rw [sound.mem_callees_addCall different, Prod.mk.injEq]
    refine or_congr_right (and_iff_right_of_imp ?_).symm
    rintro ⟨rfl, rfl⟩
    exact different

/-- Who is called by somebody has him among the callers. -/
theorem Built.dual (built : g.Built) :
    caller ∈ g.related .upstream callee ↔ callee ∈ g.related .downstream caller := by
  induction built with
  | empty => simp [related, entry?]
  | addFunction name built ih =>
    rw [built.sound.related_addFunction, built.sound.related_addFunction, ih]
  | @addCall g first second built ih =>
    by_cases different : first = second
    · rw [different, addCall_self, ih]
    · rw [built.sound.mem_callers_addCall different, built.sound.mem_callees_addCall different,
        ih, and_comm]

/-! ### Counting calls -/

def edges (g : CallGraph) : List (Text × Text) :=
  g.entries.flatMap (fun e => e.callees.map (e.name, ·))

theorem Sound.mem_edges (sound : g.Sound) : (caller, callee) ∈ g.edges ↔
    callee ∈ g.related .downstream caller := by
  simp only [edges, List.mem_flatMap, List.mem_map, Prod.mk.injEq]
  constructor
  · rintro ⟨e, member, other, called, rfl, rfl⟩
    rwa [sound.related_self member]
  · intro called
    have known : caller ∈ g.functions := by
      by_contra absent
      rw [related_absent absent] at called
      contradiction
    obtain ⟨e, member, rfl⟩ := mem_functions.mp known
    rw [sound.related_self member] at called
    exact ⟨e, member, callee, called, rfl, rfl⟩

theorem Sound.edges_nodup (sound : g.Sound) : g.edges.Nodup := by
  refine List.nodup_flatMap.mpr ⟨fun e member => ?_, ?_⟩
  · exact (NameSet.nodup (sound.within e member .downstream).1).map (fun _ _ same =>
      (Prod.mk.inj same).2)
  · have once : g.entries.Pairwise (fun first second => first.name ≠ second.name) :=
      List.pairwise_map.mp (NameSet.nodup sound.ordered)
    refine once.imp (fun {first second} different => List.disjoint_left.mpr ?_)
    rintro edge left right
    obtain ⟨_, _, rfl⟩ := List.mem_map.mp left
    obtain ⟨_, _, same⟩ := List.mem_map.mp right
    exact different (Prod.mk.inj same).1.symm

/-- Graphs with the same calls have as many of them. -/
theorem Sound.edges_length (sound : g.Sound) (other : h.Sound)
    (same : ∀ caller callee, callee ∈ g.related .downstream caller ↔
      callee ∈ h.related .downstream caller) :
    g.edges.length = h.edges.length := by
  refine ((List.perm_ext_iff_of_nodup sound.edges_nodup other.edges_nodup).mpr ?_).length_eq
  rintro ⟨caller, callee⟩
  rw [sound.mem_edges, other.mem_edges, same]

theorem Built.edgeCount (built : g.Built) : g.edgeCount = g.edges.length := by
  induction built with
  | empty => rfl
  | @addFunction g name built ih =>
    exact ih.trans (built.sound.edges_length (built.addFunction name).sound
      (fun _ _ => by rw [built.sound.related_addFunction]))
  | @addCall g caller callee built ih =>
    have added := (built.addCall caller callee).sound
    by_cases different : caller = callee
    · rw [different, addCall_self, ih]
    · have kept : ((g.addFunction caller).addFunction callee).related .downstream caller =
          g.related .downstream caller := by
        rw [(built.sound.addFunction caller).related_addFunction, built.sound.related_addFunction]
      have count : (g.addCall caller callee).edgeCount =
          if callee ∈ g.related .downstream caller then g.edgeCount else g.edgeCount + 1 := by
        simp only [CallGraph.addCall, if_neg different, kept]
      rw [count, ih]
      split
      next known =>
        refine built.sound.edges_length added (fun name other => ?_)
        rw [built.sound.mem_callees_addCall different]
        refine (or_iff_left_of_imp ?_).symm
        rintro ⟨rfl, rfl⟩
        exact known
      next fresh =>
        have new : (caller, callee) ∉ g.edges :=
          fun member => fresh (built.sound.mem_edges.mp member)
        refine ((List.perm_ext_iff_of_nodup (List.nodup_cons.mpr ⟨new, built.sound.edges_nodup⟩)
          added.edges_nodup).mpr ?_).length_eq
        rintro ⟨name, other⟩
        rw [added.mem_edges, built.sound.mem_callees_addCall different, List.mem_cons,
          built.sound.mem_edges,
          Prod.mk.injEq, or_comm]

/-- Graphs with the same functions and the same calls are the same. -/
theorem Built.ext (built : g.Built) (other : h.Built)
    (functions : ∀ name, name ∈ g.functions ↔ name ∈ h.functions)
    (calls : ∀ caller callee, callee ∈ g.related .downstream caller ↔
      callee ∈ h.related .downstream caller) :
    g = h := by
  have entries : g.entries = h.entries := by
    refine built.sound.ext other.sound functions (fun direction name far => ?_)
    cases direction with
    | downstream => exact calls name far
    | upstream => rw [built.dual, other.dual, calls]
  have count : g.edgeCount = h.edgeCount := by
    rw [built.edgeCount, other.edgeCount, built.sound.edges_length other.sound calls]
  obtain ⟨_, _⟩ := g
  obtain ⟨_, _⟩ := h
  exact congr (congrArg CallGraph.mk entries) count

/-! ### Many calls at once -/

def addCalls (g : CallGraph) (calls : List (Text × Text)) : CallGraph :=
  calls.foldl (fun g (caller, callee) => g.addCall caller callee) g

variable {calls : List (Text × Text)}

theorem Built.addCalls (built : g.Built) (calls : List (Text × Text)) :
    (g.addCalls calls).Built := by
  induction calls generalizing g with
  | nil => exact built
  | cons call calls ih => exact ih (built.addCall call.1 call.2)

theorem Built.mem_callees_addCalls (built : g.Built) :
    callee ∈ (g.addCalls calls).related .downstream caller ↔
    callee ∈ g.related .downstream caller ∨ (caller ≠ callee ∧ (caller, callee) ∈ calls) := by
  induction calls generalizing g with
  | nil => simp [CallGraph.addCalls]
  | cons call calls ih =>
    refine (ih (built.addCall call.1 call.2)).trans ?_
    rw [built.sound.called_addCall, or_assoc, ← and_or_left, List.mem_cons]

/-- Calls between functions that are known add no others. -/
theorem mem_functions_addCalls
    (known : ∀ call ∈ calls, call.1 ∈ g.functions ∧ call.2 ∈ g.functions) :
    name ∈ (g.addCalls calls).functions ↔ name ∈ g.functions := by
  induction calls generalizing g with
  | nil => rfl
  | cons call calls ih =>
    obtain ⟨caller, callee⟩ := call
    obtain ⟨callerKnown, calleeKnown⟩ := known (caller, callee) List.mem_cons_self
    have same (name : Text) : name ∈ (g.addCall caller callee).functions ↔ name ∈ g.functions := by
      by_cases different : caller = callee
      · rw [addCall, if_pos different]
      · rw [mem_functions_addCall different]
        constructor
        · rintro (rfl | rfl | member) <;> assumption
        · exact fun member => .inr (.inr member)
    refine (ih (fun call member => ?_)).trans (same name)
    rw [same, same]
    exact known call (List.mem_cons_of_mem _ member)

end CallGraph
end CodeAudit
