import CodeAudit.Proofs.CallGraph.Calls
import Mathlib.Algebra.BigOperators.Group.Finset.Basic
import Mathlib.Combinatorics.Enumerative.DoubleCounting

/-! A graph after any additions. Its callers and its callees are two maps that could as well be kept
apart, each updated on its own; they have the same keys and say the same of every two functions, in
whatever order things were added. -/
namespace CodeAudit
namespace CallGraph

/-- What can be added to a graph. -/
inductive Addition where
  | function (name : Text)
  | call (caller callee : Text)
deriving DecidableEq, Repr

def add (g : CallGraph) : Addition → CallGraph
  | .function name => g.addFunction name
  | .call caller callee => g.addCall caller callee

def ofAdditions (additions : List Addition) : CallGraph := additions.foldl add {}

variable {g : CallGraph} {additions others : List Addition} {addition : Addition}
  {name other caller callee : Text} {direction : Direction}

theorem ofAdditions_concat : ofAdditions (additions ++ [addition]) =
    (ofAdditions additions).add addition :=
  List.foldl_concat ..

theorem ofAdditions_built (additions : List Addition) : (ofAdditions additions).Built := by
  induction additions using List.reverseRecOn with
  | nil => exact .empty
  | append_singleton additions addition ih =>
    rw [ofAdditions_concat]
    cases addition with
    | function name => exact ih.addFunction name
    | call caller callee => exact ih.addCall caller callee

/-! ### Which functions and calls there are -/

/-- A function is added by itself or as one end of a call to another. -/
def Brings (name : Text) : Addition → Prop
  | .function added => name = added
  | .call caller callee => caller ≠ callee ∧ (name = caller ∨ name = callee)

instance : (addition : Addition) → Decidable (Brings name addition)
  | .function added => inferInstanceAs (Decidable (name = added))
  | .call caller callee => inferInstanceAs
      (Decidable (caller ≠ callee ∧ (name = caller ∨ name = callee)))

theorem mem_functions_add : name ∈ (g.add addition).functions ↔
    name ∈ g.functions ∨ Brings name addition := by
  cases addition with
  | function added => exact mem_functions_addFunction.trans or_comm
  | call caller callee =>
    by_cases different : caller = callee
    · simp [add, Brings, different, addCall_self]
    · rw [add, mem_functions_addCall different]
      simp only [Brings, different, ne_eq, not_false_eq_true, true_and]
      rw [← or_assoc, or_comm]

theorem mem_functions_ofAdditions :
    name ∈ (ofAdditions additions).functions ↔ ∃ addition ∈ additions, Brings name addition := by
  induction additions using List.reverseRecOn with
  | nil => simp [ofAdditions, functions]
  | append_singleton additions addition ih =>
    rw [ofAdditions_concat, mem_functions_add, ih]
    simp [or_and_right, exists_or]

theorem Built.mem_callees_add (built : g.Built) :
    callee ∈ (g.add addition).related .downstream caller ↔
    callee ∈ g.related .downstream caller ∨ caller ≠ callee ∧ addition = .call caller callee := by
  cases addition with
  | function added => simp [add, built.sound.related_addFunction]
  | call first second =>
    rw [add, built.sound.called_addCall, Addition.call.injEq, Prod.mk.injEq, eq_comm (a := caller),
      eq_comm (a := callee)]

theorem mem_callees_ofAdditions : callee ∈ (ofAdditions additions).related .downstream caller ↔
    caller ≠ callee ∧ .call caller callee ∈ additions := by
  induction additions using List.reverseRecOn with
  | nil => simp [ofAdditions, related, entry?]
  | append_singleton additions addition ih =>
    rw [ofAdditions_concat, (ofAdditions_built additions).mem_callees_add, ih, ← and_or_left,
      List.mem_append,
      List.mem_singleton, eq_comm (a := addition)]

/-- Additions count and not their order, nor how often each is made. -/
theorem ofAdditions_congr (same : ∀ addition, addition ∈ additions ↔ addition ∈ others) :
    ofAdditions additions = ofAdditions others := by
  refine (ofAdditions_built additions).ext (ofAdditions_built others) (fun name => ?_)
    (fun caller callee => ?_)
  · simp only [mem_functions_ofAdditions, same]
  · simp only [mem_callees_ofAdditions, same]

/-! ### The sizes of the name sets -/

/-- How many names are related to a function in a direction, over all functions. -/
def total (g : CallGraph) (direction : Direction) : Nat :=
  (g.functions.map (fun name => (g.related direction name).length)).sum

theorem Sound.edges_total (sound : g.Sound) : g.edges.length = g.total .downstream := by
  rw [edges, List.length_flatMap, total, functions, List.map_map]
  refine congrArg List.sum (List.map_congr_left (fun e member => ?_))
  rw [List.length_map, Function.comp_apply, sound.related_self member]
  rfl

/-- The names related to a function are some of the functions. -/
theorem Built.card_related (built : g.Built) (direction : Direction) (name : Text) :
    (g.functions.toFinset.filter (· ∈ g.related direction name)).card =
      (g.related direction name).length := by
  have same : g.functions.toFinset.filter (· ∈ g.related direction name) =
      (g.related direction name).toFinset := by
    ext other
    simp only [Finset.mem_filter, List.mem_toFinset]
    exact and_iff_right_of_imp (fun member => (built.related_within direction name).2 member)
  rw [same, List.toFinset_card_of_nodup (built.related_nodup direction name)]

/-- Counted at the one end or at the other, there are as many calls. -/
theorem Built.total_eq (built : g.Built) : g.total .upstream = g.total .downstream := by
  have counted (direction : Direction) : g.total direction =
      ∑ name ∈ g.functions.toFinset,
        (g.functions.toFinset.filter (· ∈ g.related direction name)).card := by
    rw [List.sum_toFinset _ built.functions_nodup, total]
    simp only [built.card_related]
  have ends := Finset.sum_card_bipartiteAbove_eq_sum_card_bipartiteBelow (s := g.functions.toFinset)
    (t := g.functions.toFinset) (fun callee caller => caller ∈ g.related .upstream callee)
  simp only [Finset.bipartiteAbove, Finset.bipartiteBelow, built.dual] at ends
  rw [counted, counted]
  simpa only [built.dual] using ends

theorem Built.edgeCount_total (built : g.Built) (direction : Direction) :
    g.edgeCount = g.total direction := by
  have calls : g.edgeCount = g.total .downstream := built.edgeCount.trans built.sound.edges_total
  cases direction with
  | downstream => exact calls
  | upstream => rw [calls, built.total_eq]

/-! ### Callers and callees in maps of their own -/

abbrev NameMap := List (Text × NameSet)

namespace NameMap

def keys (m : NameMap) : NameSet := m.map Prod.fst

/-- The names under a key; none under a key that is not there. -/
def find (m : NameMap) (name : Text) : NameSet :=
  ((m.find? (fun e => e.1 = name)).map Prod.snd).getD []

/-- Puts an empty set under a key unless there is a set already. -/
def emplace (name : Text) : NameMap → NameMap
  | [] => [(name, [])]
  | (key, names) :: rest =>
      if name < key then (name, []) :: (key, names) :: rest
      else if name = key then (key, names) :: rest
      else (key, names) :: emplace name rest

def insertAt (key name : Text) (m : NameMap) : NameMap :=
  m.map (fun (k, names) => (k, if k = key then names.insert name else names))

end NameMap

/-- Callers, callees and the count of calls, where each is updated without a look at the others, but
that the count follows the callees. -/
structure Tables where
  callers : NameMap := []
  callees : NameMap := []
  count : Nat := 0

namespace Tables

def addFunction (t : Tables) (name : Text) : Tables :=
  { t with callers := t.callers.emplace name, callees := t.callees.emplace name }

def addCall (t : Tables) (caller callee : Text) : Tables :=
  if caller = callee then t
  else
    let ends := (t.addFunction caller).addFunction callee
    { callers := ends.callers.insertAt callee caller
      callees := ends.callees.insertAt caller callee
      count := if (ends.callees.find caller).contains callee then ends.count else ends.count + 1 }

def add (t : Tables) : Addition → Tables
  | .function name => t.addFunction name
  | .call caller callee => t.addCall caller callee

end Tables

def table (g : CallGraph) (direction : Direction) : NameMap :=
  g.entries.map (fun e => (e.name, e.related direction))

def tables (g : CallGraph) : Tables :=
  { callers := g.table .upstream, callees := g.table .downstream, count := g.edgeCount }

theorem table_keys : (g.table direction).keys = g.functions := by
  simp [table, NameMap.keys, functions]

theorem table_find : (g.table direction).find name = g.related direction name := by
  simp only [NameMap.find, table, related, entry?, List.find?_map, Option.map_map]
  rfl

theorem table_addFunction : (g.addFunction name).table direction =
    (g.table direction).emplace name := by
  have placed (entries : List Entry) : (insertEntry name entries).map
    (fun e => (e.name, e.related direction)) =
      NameMap.emplace name (entries.map (fun e => (e.name, e.related direction))) := by
    induction entries with
    | nil => cases direction <;> rfl
    | cons first rest ih =>
      simp only [insertEntry, List.map_cons, NameMap.emplace]
      split
      · cases direction <;> rfl
      · split
        · rfl
        · rw [List.map_cons, ih]
  exact placed g.entries

/-- A call goes into either map under one of its ends, and into no other place. -/
theorem table_addCall (different : caller ≠ callee) (direction : Direction) :
    (g.addCall caller callee).table direction =
      let ends := ((g.addFunction caller).addFunction callee).table direction
      match direction with
      | .upstream => ends.insertAt callee caller
      | .downstream => ends.insertAt caller callee := by
  simp only [table, addCall, if_neg different, modifyEntry, NameMap.insertAt, List.map_map]
  cases direction
  all_goals
    refine List.map_congr_left (fun e _ => ?_)
    simp only [Function.comp_apply, Entry.related]
    split <;> split <;> simp_all

theorem tables_add : (g.add addition).tables = g.tables.add addition := by
  cases addition with
  | function name =>
    simp only [add, tables, Tables.add, Tables.addFunction, table_addFunction]
    rfl
  | call caller callee =>
    by_cases same : caller = callee
    · simp [add, Tables.add, Tables.addCall, same, addCall_self]
    · simp only [add, tables, Tables.add, Tables.addCall, if_neg same, table_addCall same,
        Tables.addFunction,
        ← table_addFunction, table_find, List.contains_iff_mem]
      simp only [addCall, if_neg same]

theorem tables_ofAdditions (additions : List Addition) :
    (ofAdditions additions).tables = additions.foldl Tables.add {} := by
  induction additions using List.reverseRecOn with
  | nil => rfl
  | append_singleton additions addition ih =>
    rw [ofAdditions_concat, tables_add, ih, List.foldl_concat]

/-- After any additions the two maps, each kept on its own, have the functions for keys, which are
those that were added and the ends of calls to others. They say the same of every two functions, and
just what was added; nothing is related to itself, the count of calls is the size of either map, and
the order of the additions makes no difference. -/
theorem additions_coherent (additions : List Addition) :
    let g := ofAdditions additions
    let kept := additions.foldl Tables.add {}
    g.tables = kept ∧ kept.callers.keys = g.functions ∧ kept.callees.keys = g.functions ∧
    (∀ name, name ∈ g.functions ↔ ∃ addition ∈ additions, Brings name addition) ∧
    (∀ caller callee, callee ∈ g.related .downstream caller ↔ caller ∈ g.related .upstream callee) ∧
    (∀ direction name, name ∉ g.related direction name ∧ (g.related direction name).Nodup) ∧
    (∀ caller callee, callee ∈ g.related .downstream caller ↔
      caller ≠ callee ∧ .call caller callee ∈ additions) ∧
    (∀ direction, g.edgeCount = g.total direction) ∧
    ∀ others, others.Perm additions → ofAdditions others = g := by
  intro g kept
  have built : g.Built := ofAdditions_built additions
  have same : g.tables = kept := tables_ofAdditions additions
  have apart (name : Text) : name ∉ g.related .downstream name := fun member =>
    (mem_callees_ofAdditions.mp member).1 rfl
  refine ⟨same, ?_, ?_, fun _ => mem_functions_ofAdditions, fun _ _ => built.dual.symm,
    fun direction name => ?_,
    fun _ _ => mem_callees_ofAdditions, built.edgeCount_total, fun others order => ?_⟩
  · exact (congrArg (fun t => t.callers.keys) same.symm).trans table_keys
  · exact (congrArg (fun t => t.callees.keys) same.symm).trans table_keys
  · refine ⟨?_, built.related_nodup direction name⟩
    cases direction with
    | downstream => exact apart name
    | upstream => exact fun member => apart name (built.dual.mp member)
  · exact ofAdditions_congr (fun _ => order.mem_iff)

/-- Two functions that call each other, a call that is made twice and another of a function by
itself. -/
def crossing : List Addition :=
  [.call (utf8 "pay") (utf8 "send"), .function (utf8 "log"), .call (utf8 "send") (utf8 "pay"),
    .call (utf8 "loop") (utf8 "loop"), .call (utf8 "pay") (utf8 "send")]

theorem additions_coherent_crossing : crossing.reverse.Perm crossing ∧
    ofAdditions crossing.reverse = ofAdditions crossing ∧
      utf8 "loop" ∉ (ofAdditions crossing).functions ∧
    utf8 "pay" ∈ (ofAdditions crossing).related .upstream (utf8 "send") ∧
    (ofAdditions crossing).total .upstream = 2 := by
  obtain ⟨_, _, _, known, dual, _, calls, counts, order⟩ := additions_coherent crossing
  have absent : ¬∃ addition ∈ crossing, Brings (utf8 "loop") addition := by decide
  have called : utf8 "pay" ≠ utf8 "send" ∧ .call (utf8 "pay") (utf8 "send") ∈ crossing := by decide
  have two : (ofAdditions crossing).edgeCount = 2 := by decide
  exact ⟨crossing.reverse_perm, order _ crossing.reverse_perm, fun member =>
    absent ((known _).mp member),
    (dual _ _).mp ((calls _ _).mpr called), (counts .upstream).symm.trans two⟩

end CallGraph
end CodeAudit
