import CodeAudit.BusinessFlow
import CodeAudit.Proofs.CallGraph.Distance
import CodeAudit.Proofs.CallTree.Excerpts
import Mathlib.Data.List.Induction
import Mathlib.Data.List.Permutation

/-! What a flow consists of. Trees read down to a depth give the functions at most so many calls
away, and of each of those the flow keeps its record once. -/
namespace CodeAudit

namespace TreeBuilder
variable {b : TreeBuilder} {tree : CallTree} {root : Text} {direction : Direction} {maxDepth : Nat}
  {record : PlacedRecord}

/-- The records within a depth are those of the functions that many calls away. -/
theorem mem_excerpt_build (built : b.graph.Built) (made : (b.build root direction []).1 = some tree)
    (whole : tree.truncated = false) :
    record ∈ (tree.excerpt maxDepth).records ↔
      ∃ name, b.index.find? name = some record ∧
        b.graph.distance direction root name ≤ maxDepth := by
  have sound := build_sound built made
  have bijective := build_bijOn built made whole
  rw [sound.mem_excerpt]
  constructor
  · rintro ⟨i, node, found, within, present⟩
    have simple := bijective.mapsTo (CallTree.node?_lt found)
    have deep := sound.depth found
    refine ⟨node.name, (sound.records i node found).symm.trans present,
      CallGraph.distance_le_simple.mpr ?_⟩
    exact ⟨tree.pathTo i, simple, CallTree.pathTo_last found, by omega⟩
  · rintro ⟨name, known, near⟩
    obtain ⟨path, simple, reaches, short⟩ := CallGraph.distance_le_simple.mp near
    obtain ⟨i, inside, rfl⟩ := bijective.surjOn simple
    obtain ⟨node, found⟩ := CallTree.node?_of_lt inside
    have deep := sound.depth found
    obtain rfl := Option.some.inj ((CallTree.pathTo_last found).symm.trans reaches)
    exact ⟨i, node, found, by omega, (sound.records i node found).trans known⟩

end TreeBuilder

theorem FunctionIndex.find?_shortName {index : FunctionIndex} {name : Text} {record : PlacedRecord}
    (found : index.find? name = some record) : record.record.shortName = name := by
  have matching := List.find?_some found
  exact of_decide_eq_true matching

namespace FlowBuilder
variable {records : List PlacedRecord} {record other : PlacedRecord}

theorem keepFirst_concat : keepFirst (records ++ [record]) =
    if (keepFirst records).any (sameSource record) then keepFirst records
    else keepFirst records ++ [record] := by
  rw [keepFirst, List.foldl_append, List.foldl_cons, List.foldl_nil]
  rfl

theorem keepFirst_subset : keepFirst records ⊆ records := by
  induction records using List.reverseRecOn with
  | nil => exact List.Subset.refl _
  | append_singleton before last ih =>
    rw [keepFirst_concat]
    split
    · exact List.subset_append_of_subset_left _ ih
    · exact List.append_subset.mpr
        ⟨List.subset_append_of_subset_left _ ih, List.subset_append_right _ _⟩

theorem sameSource_refl : sameSource record record = true := by simp [sameSource]

/-- Some record of its source is kept for each. -/
theorem keepFirst_source (member : record ∈ records) :
    ∃ kept ∈ keepFirst records, sameSource record kept := by
  induction records using List.reverseRecOn with
  | nil => exact absurd member List.not_mem_nil
  | append_singleton before last ih =>
    rw [keepFirst_concat]
    rcases List.mem_append.mp member with earlier | here
    · obtain ⟨kept, inside, same⟩ := ih earlier
      split
      · exact ⟨kept, inside, same⟩
      · exact ⟨kept, List.mem_append_left _ inside, same⟩
    · obtain rfl := List.mem_singleton.mp here
      split
      next present => simpa using present
      next => exact ⟨record, by simp, sameSource_refl⟩

theorem keepFirst_nodup : (keepFirst records).Nodup := by
  induction records using List.reverseRecOn with
  | nil => exact .nil
  | append_singleton before last ih =>
    rw [keepFirst_concat]
    split
    next => exact ih
    next absent =>
      refine List.nodup_append.mpr ⟨ih, List.nodup_singleton last, fun kept inside other same => ?_⟩
      obtain rfl := List.mem_singleton.mp same
      rintro rfl
      exact absent (List.any_eq_true.mpr ⟨kept, inside, sameSource_refl⟩)

/-- Records found by their names are told apart by their sources, so all of them are kept. -/
theorem mem_keepFirst (index : FunctionIndex)
    (found : ∀ record ∈ records, ∃ name, index.find? name = some record) :
    record ∈ keepFirst records ↔ record ∈ records := by
  refine ⟨fun kept => keepFirst_subset kept, fun member => ?_⟩
  obtain ⟨kept, inside, same⟩ := keepFirst_source member
  obtain ⟨name, here⟩ := found record member
  obtain ⟨other, there⟩ := found kept (keepFirst_subset inside)
  have qualified : record.record.name = kept.record.name := by
    simp only [sameSource, Bool.and_eq_true, beq_iff_eq] at same
    exact same.1
  have short : name = other := by
    rw [← FunctionIndex.find?_shortName here, ← FunctionIndex.find?_shortName there,
      FunctionRecord.shortName,
      FunctionRecord.shortName, qualified]
  obtain rfl := Option.some.inj (here.symm.trans (short ▸ there))
  exact inside

variable {b : FlowBuilder} {root : Text}

/-- The records one direction contributes. -/
theorem mem_excerpt (built : b.trees.graph.Built) (direction : Direction)
    (whole : ∀ tree, (b.trees.build root direction []).1 = some tree → tree.truncated = false) :
    record ∈ (b.excerpt root direction).1.records ↔
      ∃ name, b.trees.index.find? name = some record ∧
        b.trees.graph.distance direction root name ≤ b.maxDepth.toNat := by
  unfold excerpt
  rcases made : b.trees.build root direction [] with ⟨_ | tree, log⟩
  · have excluded := TreeBuilder.build_none.mp (congrArg Prod.fst made)
    exact absurd excluded List.not_mem_nil
  · have made : (b.trees.build root direction []).1 = some tree := congrArg Prod.fst made
    exact TreeBuilder.mem_excerpt_build built made (whole tree made)

theorem contribution_records {own : PlacedRecord} (found : b.index.find? root = some own) :
    (b.contribution root).records =
      (b.excerpt root .upstream).1.records ++ (b.excerpt root .downstream).1.records ++ [own] := by
  unfold contribution
  rw [found]

theorem build_records : (b.build [root]).1.records = keepFirst (b.contribution root).records := by
  simp only [build, List.map_singleton, List.flatMap_singleton]

/-- The root lies no call away from itself, so it is among the records of either direction
already. -/
theorem mem_contribution (built : b.trees.graph.Built) (shared : b.trees.index = b.index)
    (known : (b.index.find? root).isSome)
    (whole : ∀ direction tree, (b.trees.build root direction []).1 = some tree →
      tree.truncated = false) :
    record ∈ (b.contribution root).records ↔
      ∃ name, b.index.find? name = some record ∧
        ∃ direction, b.trees.graph.distance direction root name ≤ b.maxDepth.toNat := by
  obtain ⟨own, found⟩ := Option.isSome_iff_exists.mp known
  rw [contribution_records found, List.mem_append, List.mem_append,
    mem_excerpt built .upstream (whole _),
    mem_excerpt built .downstream (whole _), shared, List.mem_singleton]
  constructor
  · rintro ((⟨name, here, near⟩ | ⟨name, here, near⟩) | rfl)
    · exact ⟨name, here, .upstream, near⟩
    · exact ⟨name, here, .downstream, near⟩
    · refine ⟨root, found, .upstream,
        CallGraph.distance_le.mpr ⟨[root], ⟨rfl, rfl, .singleton _⟩, ?_⟩⟩
      exact Nat.le_add_left _ _
  · rintro ⟨name, here, direction, near⟩
    cases direction with
    | upstream => exact .inl (.inl ⟨name, here, near⟩)
    | downstream => exact .inl (.inr ⟨name, here, near⟩)

/-- A flow holds, once each, the records of the functions that are at most so many calls away from
its root, either way. -/
theorem build_within_distance (graph : CallGraph) (built : graph.Built) (index : FunctionIndex)
    (maxNodes maxDepth : UInt64) (root : Text) (known : (index.find? root).isSome)
    (whole : ∀ direction tree,
      (TreeBuilder.build ⟨graph, index, maxNodes⟩ root direction []).1 = some tree →
        tree.truncated = false) :
    let flow := (build ⟨⟨graph, index, maxNodes⟩, index, maxDepth⟩ [root]).1
    flow.records.Nodup ∧
    ∀ record, record ∈ flow.records ↔
      ∃ name, index.find? name = some record ∧
        ∃ direction, graph.distance direction root name ≤ maxDepth.toNat := by
  intro flow
  have collected (record : PlacedRecord) :
      record ∈ (contribution ⟨⟨graph, index, maxNodes⟩, index, maxDepth⟩ root).records ↔
        ∃ name, index.find? name = some record ∧
          ∃ direction, graph.distance direction root name ≤ maxDepth.toNat :=
    mem_contribution built rfl known whole
  have kept : flow.records = keepFirst
      (contribution ⟨⟨graph, index, maxNodes⟩, index, maxDepth⟩ root).records :=
    build_records
  refine ⟨kept ▸ keepFirst_nodup, fun record => ?_⟩
  rw [kept, mem_keepFirst index (fun other member => ?_), collected record]
  obtain ⟨name, here, _⟩ := (collected other).mp member
  exact ⟨name, here⟩

/-- A loan is checked and paid; a payment goes through the check, ends in a transfer and may start
another loan. -/
def lending : CallGraph :=
  (((((({} : CallGraph).addCall (utf8 "loan") (utf8 "check")).addCall (utf8 "check")
    (utf8 "pay")).addCall
    (utf8 "loan") (utf8 "pay")).addCall (utf8 "pay") (utf8 "send")).addCall (utf8 "pay")
      (utf8 "loan"))

theorem lending_built : lending.Built :=
  .addCall _ _ (.addCall _ _ (.addCall _ _ (.addCall _ _ (.addCall _ _ .empty))))

/-- Two of the functions share a short name. -/
def bank : FunctionIndex :=
  { records := ["Desk.pay", "Bank.loan", "Bank.check", "Bank.pay", "Bank.send"].map fun name =>
      { name := utf8 name, content := utf8 name } }

/-- The transfer is two calls away from the loan. -/
theorem build_within_distance_lending :
    let flow := (build ⟨⟨lending, bank, 7⟩, bank, 1⟩ [utf8 "loan"]).1
    flow.records.map PlacedRecord.place = [1, 3, 2] ∧ flow.records.Nodup ∧
    ∀ record, record ∈ flow.records ↔
      ∃ name, bank.find? name = some record ∧
        ∃ direction, lending.distance direction (utf8 "loan") name ≤ 1 := by
  have uncut (direction : Direction) :
      (TreeBuilder.build ⟨lending, bank, 7⟩ (utf8 "loan") direction []).1.map CallTree.truncated =
        some false := by
    cases direction <;> cbv
  refine ⟨?_, build_within_distance lending lending_built bank 7 1 (utf8 "loan") (by decide)
    fun direction tree made => ?_⟩
  · rw [build_records]
    cbv
  · have whole := uncut direction
    rw [made] at whole
    exact Option.some.inj whole

end FlowBuilder
end CodeAudit
