import CodeAudit.Proofs.CallGraph.SimplePath
import Mathlib.Data.ENat.Lattice

/-! How many calls lie between two functions. A chain that comes back to a function can leave out
what lies between, so the shortest chains are simple paths. -/
namespace CodeAudit
namespace CallGraph

/-- Names from the first to the last, each one call away from the one before it; names may come
again. -/
structure Chain (g : CallGraph) (direction : Direction) (first last : Text)
    (names : List Text) : Prop where
  starts : names.head? = some first
  ends : names.getLast? = some last
  linked : g.Linked direction names

/-- The number of calls on a shortest chain, infinite when there is no chain. -/
noncomputable def distance (g : CallGraph) (direction : Direction) (first last : Text) : ℕ∞ :=
  sInf ((fun names : List Text => ((names.length - 1 : ℕ) : ℕ∞)) ''
    {names | g.Chain direction first last names})

variable {g : CallGraph} {direction : Direction} {first last : Text} {names : List Text} {limit : ℕ}

/-- The least of the lengths is the length of a chain. -/
theorem distance_le :
    g.distance direction first last ≤ limit ↔
      ∃ names, g.Chain direction first last names ∧ names.length ≤ limit + 1 := by
  constructor
  · intro near
    have joined : ({names | g.Chain direction first last names} : Set (List Text)).Nonempty := by
      refine Set.nonempty_iff_ne_empty.mpr (fun none => ?_)
      rw [distance, none, Set.image_empty, sInf_empty, top_le_iff] at near
      exact ENat.natCast_ne_top limit near
    obtain ⟨names, chain, least⟩ :=
      csInf_mem (joined.image fun names : List Text => ((names.length - 1 : ℕ) : ℕ∞))
    refine ⟨names, chain, ?_⟩
    have short : ((names.length - 1 : ℕ) : ℕ∞) ≤ limit := least.trans_le near
    have := ENat.natCast_le_natCast.mp short
    omega
  · rintro ⟨names, chain, short⟩
    have least : g.distance direction first last ≤ ((names.length - 1 : ℕ) : ℕ∞) :=
      csInf_le' ⟨names, chain, rfl⟩
    exact least.trans (ENat.natCast_le_natCast.mpr (by omega))

/-- A chain can be cut down to a simple path between the same ends. -/
theorem Chain.cut (chain : g.Chain direction first last names) :
    ∃ path, g.SimplePath direction [] first path ∧ path.getLast? = some last ∧
      path.length ≤ names.length := by
  obtain ⟨starts, ends, linked⟩ := chain
  obtain ⟨rest, rfl⟩ := List.head?_eq_some_iff.mp starts
  induction rest generalizing first with
  | nil =>
    exact ⟨[first], ⟨rfl, linked, List.nodup_singleton _, fun _ _ => List.not_mem_nil⟩, ends,
      Nat.le_refl _⟩
  | cons next rest ih =>
    obtain ⟨step, onward⟩ := List.isChain_cons_cons.mp linked
    obtain ⟨path, simple, reaches, short⟩ := ih rfl (by simpa using ends) onward
    obtain ⟨more, rfl⟩ := List.head?_eq_some_iff.mp simple.starts
    by_cases again : first ∈ next :: more
    · -- The path comes back to the first name, and goes on from there.
      obtain ⟨before, after, split⟩ := List.append_of_mem again
      have onwards : first :: after <:+ next :: more := ⟨before, split.symm⟩
      refine ⟨first :: after,
        ⟨rfl, ?_, simple.simple.sublist onwards.sublist, fun _ _ => List.not_mem_nil⟩, ?_, ?_⟩
      · exact List.IsChain.suffix simple.linked onwards
      · rw [split, List.getLast?_append] at reaches
        simpa using reaches
      · have := onwards.length_le
        simp only [List.length_cons] at this short ⊢
        omega
    · refine ⟨first :: next :: more, ⟨rfl, List.isChain_cons_cons.mpr ⟨step, simple.linked⟩,
        List.nodup_cons.mpr ⟨again, simple.simple⟩, fun _ _ => List.not_mem_nil⟩, ?_, ?_⟩
      · simpa using reaches
      · simpa using short

/-- Distances are lengths of simple paths. -/
theorem distance_le_simple :
    g.distance direction first last ≤ limit ↔
      ∃ path, g.SimplePath direction [] first path ∧ path.getLast? = some last ∧
        path.length ≤ limit + 1 := by
  rw [distance_le]
  constructor
  · rintro ⟨names, chain, short⟩
    obtain ⟨path, simple, reaches, shorter⟩ := chain.cut
    exact ⟨path, simple, reaches, Nat.le_trans shorter short⟩
  · rintro ⟨path, simple, reaches, short⟩
    exact ⟨path, ⟨simple.starts, reaches, simple.linked⟩, short⟩

end CallGraph
end CodeAudit
