import CodeAudit.Proofs.BusinessFlow.Distance

/-! Flows of several roots. Leaving out what comes again goes along with putting lists one after the
other, so that the flow of two lists of roots is made up of the flows of each. -/
namespace CodeAudit

def PlacedRecord.source (p : PlacedRecord) : Text × Text := (p.record.name, p.record.content)

namespace DepthCounts

theorem count_foldl_merge {α : Type} (counts : DepthCounts) (stats : α → DepthCounts)
    (parts : List α) (depth : Nat) :
    (parts.foldl (fun acc part => acc.merge (stats part)) counts).count depth =
      counts.count depth + (parts.map (fun part => (stats part).count depth)).sum := by
  induction parts generalizing counts with
  | nil => rfl
  | cons part rest ih =>
    rw [List.foldl_cons, ih, count_merge, List.map_cons, List.sum_cons, Nat.add_assoc]

theorem Proper.foldl_merge {α : Type} {counts : DepthCounts} (proper : Proper counts)
    {stats : α → DepthCounts} (each : ∀ part, Proper (stats part)) (parts : List α) :
    Proper (parts.foldl (fun acc part => acc.merge (stats part)) counts) := by
  induction parts generalizing counts with
  | nil => exact proper
  | cons part rest ih => exact ih (proper.merge (each part))

end DepthCounts

namespace FlowBuilder
variable {b : FlowBuilder} {records others : List PlacedRecord} {record other : PlacedRecord}
  {root : Text}

theorem sameSource_iff : sameSource record other = true ↔ record.source = other.source := by
  simp [sameSource, PlacedRecord.source]

theorem any_sameSource : records.any (sameSource record) = true ↔
    record.source ∈ records.map PlacedRecord.source := by
  rw [List.any_eq_true, List.mem_map]
  exact exists_congr (fun p => and_congr_right (fun _ => sameSource_iff.trans eq_comm))

theorem keepFirst_sources : ((keepFirst records).map PlacedRecord.source).Nodup := by
  induction records using List.reverseRecOn with
  | nil => exact .nil
  | append_singleton before last ih =>
    rw [keepFirst_concat]
    split
    next => exact ih
    next absent =>
      rw [any_sameSource] at absent
      rw [List.map_append, List.map_singleton]
      apply List.nodup_append.mpr
      refine ⟨ih, List.nodup_singleton _, fun kept inside new same => ?_⟩
      obtain rfl := List.mem_singleton.mp same
      rintro rfl
      exact absent inside

/-- Of a second list remains what the first has no record of. -/
theorem keepFirst_append : keepFirst (records ++ others) = keepFirst records ++
    (keepFirst others).filter
      (fun p => p.source ∉ (keepFirst records).map PlacedRecord.source) := by
  induction others using List.reverseRecOn with
  | nil => simp [keepFirst]
  | append_singleton before last ih =>
    rw [← List.append_assoc, keepFirst_concat, keepFirst_concat, ih]
    by_cases early : last.source ∈ (keepFirst records).map PlacedRecord.source
    · -- The record comes in the first list already, whether it comes again in the second or not.
      have known : (keepFirst records ++ (keepFirst before).filter
          (fun p => p.source ∉ (keepFirst records).map PlacedRecord.source)).any (sameSource last) =
            true := by
        rw [List.any_append, any_sameSource.mpr early, Bool.true_or]
      rw [if_pos known]
      split
      · rfl
      · rw [List.filter_append, List.filter_singleton]
        simp [early]
    · have here : (keepFirst records ++ (keepFirst before).filter
          (fun p => p.source ∉ (keepFirst records).map PlacedRecord.source)).any (sameSource last) =
          (keepFirst before).any (sameSource last) := by
        rw [Bool.eq_iff_iff, any_sameSource, any_sameSource, List.map_append, List.mem_append]
        constructor
        · rintro (first | second)
          · exact absurd first early
          · exact (List.filter_sublist.map _).subset second
        · intro second
          obtain ⟨kept, inside, same⟩ := List.mem_map.mp second
          refine .inr (List.mem_map.mpr ⟨kept, List.mem_filter.mpr ⟨inside, ?_⟩, same⟩)
          rw [same]
          exact decide_eq_true early
      rw [here]
      split
      · rfl
      · rw [List.filter_append, List.filter_singleton]
        simp [early]

/-! ### Contributions -/

theorem contribution_unknown (unknown : b.index.find? root = none) :
    (b.contribution root).records = [] ∧ (b.contribution root).upstream = [] ∧
      (b.contribution root).downstream = [] := by
  simp [contribution, unknown]

theorem excerpt_proper (direction : Direction) :
    (b.excerpt root direction).1.depthCounts.Proper := by
  unfold excerpt
  split
  · exact CallTree.depthCounts_proper
  · exact DepthCounts.proper_nil

theorem contribution_proper : (b.contribution root).upstream.Proper ∧
    (b.contribution root).downstream.Proper := by
  unfold contribution
  split
  · exact ⟨DepthCounts.proper_nil, DepthCounts.proper_nil⟩
  · exact ⟨excerpt_proper .upstream, excerpt_proper .downstream⟩

def collected (b : FlowBuilder) (roots : List Text) : List PlacedRecord :=
  roots.flatMap (fun root => (b.contribution root).records)

def upstreamStats (b : FlowBuilder) (roots : List Text) : DepthCounts :=
  roots.foldl (fun acc root => acc.merge (b.contribution root).upstream) []

def downstreamStats (b : FlowBuilder) (roots : List Text) : DepthCounts :=
  roots.foldl (fun acc root => acc.merge (b.contribution root).downstream) []

variable {roots : List Text}

theorem build_eq : (b.build roots).1 =
    { text := joinContents (keepFirst (b.collected roots)), records := keepFirst (b.collected roots)
      upstream := b.upstreamStats roots, downstream := b.downstreamStats roots } := by
  simp only [build, List.flatMap_map, List.foldl_map]
  rfl

theorem collected_known : b.collected (roots.filter (fun root => (b.index.find? root).isSome)) =
    b.collected roots := by
  apply CallTree.flatMap_filter
  intro root _ unknown
  exact (contribution_unknown (by simpa using unknown)).1

theorem foldl_merge_known (stats : FlowBuilder.Contribution → DepthCounts)
    (none : ∀ root, b.index.find? root = none → stats (b.contribution root) = [])
    (counts : DepthCounts) :
    (roots.filter (fun root => (b.index.find? root).isSome)).foldl
        (fun acc root => acc.merge (stats (b.contribution root))) counts =
      roots.foldl (fun acc root => acc.merge (stats (b.contribution root))) counts := by
  rw [List.foldl_filter]
  congr 1
  funext acc root
  cases found : b.index.find? root with
  | none => rw [none root found]; rfl
  | some own => rfl

/-- The flow of two lists of roots is that of the first, followed by those records of the second
that the first does not have, with the counts of both added up. Roots without a record make no
difference. -/
theorem flows_compose (b : FlowBuilder) (roots others : List Text) :
    let first := (b.build roots).1
    let second := (b.build others).1
    let joint := (b.build (roots ++ others)).1
    joint.records = first.records ++
      second.records.filter (fun p => p.source ∉ first.records.map PlacedRecord.source) ∧
    (first.records.map PlacedRecord.source).Nodup ∧
    (first.upstream.Proper ∧ first.downstream.Proper) ∧
    (∀ depth, joint.upstream.count depth = first.upstream.count depth +
      second.upstream.count depth ∧
      joint.downstream.count depth = first.downstream.count depth + second.downstream.count depth) ∧
    (b.build (roots.filter (fun root => (b.index.find? root).isSome))).1 = first := by
  intro first second joint
  have ahead : first = _ := build_eq
  have behind : second = _ := build_eq
  have both : joint = _ := build_eq
  rw [ahead, behind, both]
  refine ⟨?_, keepFirst_sources, ⟨?_, ?_⟩, fun depth => ⟨?_, ?_⟩, ?_⟩
  · change keepFirst (b.collected (roots ++ others)) = _
    rw [collected, List.flatMap_append]
    exact keepFirst_append
  · exact DepthCounts.proper_nil.foldl_merge (fun _ => contribution_proper.1) roots
  · exact DepthCounts.proper_nil.foldl_merge (fun _ => contribution_proper.2) roots
  · simp only [upstreamStats, DepthCounts.count_foldl_merge, DepthCounts.count_nil, Nat.zero_add,
      List.map_append,
      List.sum_append]
  · simp only [downstreamStats, DepthCounts.count_foldl_merge, DepthCounts.count_nil, Nat.zero_add,
      List.map_append,
      List.sum_append]
  · rw [build_eq, collected_known, upstreamStats, downstreamStats,
      foldl_merge_known Contribution.upstream (fun _ unknown => (contribution_unknown unknown).2.1),
      foldl_merge_known Contribution.downstream
        (fun _ unknown => (contribution_unknown unknown).2.2)]
    rfl

end FlowBuilder
end CodeAudit
