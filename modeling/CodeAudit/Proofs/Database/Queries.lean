import CodeAudit.Proofs.Database.Mirror

/-! Queries find the rows of the tasks that the table answers, through the ids and through
indexes. -/
namespace CodeAudit

theorem Cell.compareTo_integer (collation : Collation) (a b : Int64) :
    (Cell.integer a).compareTo collation (.integer b) = compare a.toInt b.toInt := by
  have signed (i : Int) : (if (decide (i < 0) : Bool) then -(i.natAbs : Int) else i.natAbs) =
      i := by
    by_cases negative : i < 0
    · rw [if_pos (decide_eq_true negative)]
      omega
    · rw [if_neg (by simpa using negative)]
      omega
  change Numeral.compareScaled (if (decide (a.toInt < 0) : Bool) then -(a.toInt.natAbs : Int)
    else a.toInt.natAbs) 0
    (if (decide (b.toInt < 0) : Bool) then -(b.toInt.natAbs : Int) else b.toInt.natAbs) 0 = _
  rw [signed, signed]
  simp [Numeral.compareScaled]

namespace Search
variable {search : Search} {columns : List Nat} {meets : Row → Bool}

theorem keep_legible (legible : ∀ row ∈ search.rows, row.unread = []) :
    search.keep columns meets = { search with rows := search.rows.filter meets } := by
  obtain ⟨rows, fault⟩ := search
  unfold keep
  induction rows with
  | nil => rfl
  | cons row rest ih =>
    obtain ⟨first, others⟩ := List.forall_mem_cons.mp legible
    have seen : columns.any row.unread.contains = false := by simp [first]
    have later := ih others
    simp only at later
    rw [List.foldr_cons, later, seen]
    cases met : meets row with
    | true => rw [List.filter_cons_of_pos met]; rfl
    | false => rw [List.filter_cons_of_neg (by simp [met])]; rfl

end Search

namespace Relation
variable {rows : List Row} {row : Row}

theorem find?_member (ordered : Row.InOrder rows) {row : Row} (member : row ∈ rows) :
    rows.find? (fun other => other.number = row.number) = some row := by
  induction rows with
  | nil => cases member
  | cons first rest ih =>
    obtain ⟨above, tail⟩ := List.pairwise_cons.mp ordered
    rcases List.mem_cons.mp member with rfl | inside
    · exact List.find?_cons_of_pos (decide_eq_true rfl)
    · have apart : ¬first.number = row.number := fun same =>
        Int64.lt_irrefl (same ▸ above row inside)
      rw [List.find?_cons_of_neg (by simpa using apart)]
      exact ih tail inside

/-- Rows that are looked up by their numbers are found in that order. -/
theorem visit_numbers (ordered : Row.InOrder rows) {matching : List Row}
    (inside : ∀ row ∈ matching, row ∈ rows) :
    (ofTasks rows).visit (matching.map Row.number) = { rows := matching } := by
  induction matching with
  | nil => rfl
  | cons row rest ih =>
    obtain ⟨first, others⟩ := List.forall_mem_cons.mp inside
    have found : (ofTasks rows).find? row.number = some row := find?_member ordered first
    have seen : (ofTasks rows).hides row.number = false := rfl
    rw [List.map_cons]
    unfold visit
    rw [seen, if_neg Bool.false_ne_true, found, ih others]
    rfl

/-- An index lists the rows that hold a value in the order of their numbers. -/
theorem numbersUnder_ordered {matching : List Row} {index : Index} (sound : index.isSound)
    (ordered : Row.InOrder matching) (collation : Collation) (value : Cell) :
    numbersUnder matching collation value index = matching.map Row.number := by
  simp only [Index.isSound, Bool.and_eq_true, List.isEmpty_iff] at sound
  obtain ⟨⟨_, missing⟩, strays⟩ := sound
  have listed : matching.filter (fun row => !index.missing.contains row.number) = matching := by
    refine List.filter_eq_self.mpr (fun row _ => ?_)
    simp [missing]
  unfold numbersUnder
  rw [listed, strays]
  refine (congrArg (List.mergeSort · _) (List.append_nil _)).trans ?_
  refine List.mergeSort_of_pairwise (List.pairwise_map.mpr (ordered.imp ?_))
  intro row other below
  exact decide_eq_true (Int64.le_of_lt below)

/-- Rows that are in the order of their numbers are so by their ids. -/
theorem inOrder_ordered {matching : List Row} (collation : Collation)
    (ordered : Row.InOrder matching) :
    matching.mergeSort (fun row other => ((ofTasks rows).value row "id").compareTo collation
      ((ofTasks rows).value other "id") != .gt) = matching := by
  have own (row : Row) : (ofTasks rows).value row "id" = .integer row.number := by
    exact (List.cons.inj (values_forTasks row)).1
  refine List.mergeSort_of_pairwise (ordered.imp ?_)
  intro row other below
  have lower := Int64.lt_iff_toInt_lt.mp below
  rw [own, own, Cell.compareTo_integer, Int.compare_eq_lt.mpr lower]
  rfl

theorem searches_ofTasks :
    forTasks.place? "id" = some 0 ∧ forTasks.place? "project_id" = some 2 ∧
      forTasks.place? "group_id" = some 16 ∧ forTasks.place? "result" = some 7 := by
  decide +kernel

theorem search_id (number : Int64) :
    (ofTasks rows).search "id" (.integer number) =
      { rows := (rows.find? (fun row => row.number = number)).toList } := by
  have place : (ofTasks rows).place? "id" = some 0 := searches_ofTasks.1
  unfold search
  rw [place]
  rfl

/-- Projects and groups have an index each. -/
theorem indexed_ofTasks {name : String} (listed : name ∈ ["project_id", "group_id"]) :
    ∃ place index, forTasks.place? name = some place ∧ place ≠ 0 ∧
      (ofTasks []).indexAt? place = some index ∧ index.isSound = true ∧
      (ofTasks []).listsInOrder index = true := by
  rcases List.mem_cons.mp listed with rfl | listed
  · exact ⟨2, Database.index Database.projectIndex "project_id", by decide +kernel⟩
  · obtain rfl := List.mem_singleton.mp listed
    exact ⟨16, Database.index Database.groupIndex "group_id", by decide +kernel⟩

/-- Through an index the rows that hold a value are found in the order of their ids. -/
theorem search_indexed {name : String} (listed : name ∈ ["project_id", "group_id"])
    (ordered : Row.InOrder rows) (value : Cell) :
    (ofTasks rows).search name value =
      { rows := rows.filter ((ofTasks rows).matchesCell name value) } := by
  obtain ⟨place, index, placed, apart, found, sound, lists⟩ := indexed_ofTasks listed
  have placed : (ofTasks rows).place? name = some place := placed
  have found : (ofTasks rows).indexAt? place = some index := found
  have lists : (ofTasks rows).listsInOrder index = true := lists
  have other : ¬(ofTasks rows).numberColumn = some place := fun same =>
    apart (Option.some.inj same).symm
  have isThere : index.isLost = false := by
    simp only [Index.isSound, Bool.and_eq_true, Bool.not_eq_true'] at sound
    exact sound.1.1.1
  have all : (ofTasks rows).rows = rows := rfl
  have kept := ordered.sublist (List.filter_sublist (p := (ofTasks rows).matchesCell name value))
  unfold search
  rw [placed]
  dsimp only
  rw [if_neg other, found]
  dsimp only
  rw [isThere, if_neg Bool.false_ne_true, lists, if_pos rfl, all, numbersUnder_ordered sound kept,
    visit_numbers ordered (fun row member => (List.mem_filter.mp member).1)]
  exact congrArg (Search.mk · none) (inOrder_ordered _ kept)

theorem matchesCell_ofTasks {name : String} {place : Nat} {column : Column} {value : Text}
    (placed : (ofTasks rows).place? name = some (place + 1))
    (typed : forTasks.columns[place + 1]? = some column) (affinity : column.affinity = .text)
    (collation : column.collation = .binary) (kept : row.Kept) :
    (ofTasks rows).matchesCell name (.text value) row =
      ((row.task.bound .bytes).getD place .null).equals .binary (.text value) := by
  have typed : (ofTasks rows).columns[place + 1]? = some column := typed
  unfold matchesCell
  rw [placed]
  dsimp only
  rw [typed]
  dsimp only
  rw [cell_ofTasks kept, affinity, collation]
  rfl

theorem matches_project (kept : row.Kept) (project : Text) :
    (ofTasks rows).matchesCell "project_id" (Task.textCell .bytes project) row =
      decide (row.task.projectId = project.beforeNul) := by
  have placed : (ofTasks rows).place? "project_id" = some 2 := searches_ofTasks.2.1
  have whole : row.task.projectId.beforeNul = row.task.projectId := by
    have same := congrArg Task.projectId kept.asRow
    rwa [Task.asRow_eq] at same
  refine (matchesCell_ofTasks placed rfl rfl rfl kept).trans ?_
  rw [← whole]
  exact Cell.equals_text _ _

theorem matches_group (kept : row.Kept) (group : Text) :
    (ofTasks rows).matchesCell "group_id" (Task.textCell .bytes group) row =
      decide (row.task.groupId = some group.beforeNul) := by
  have placed : (ofTasks rows).place? "group_id" = some 16 := searches_ofTasks.2.2.1
  have whole : row.task.groupId.map Text.beforeNul = row.task.groupId := by
    have same := congrArg Task.groupId kept.asRow
    rwa [Task.asRow_eq] at same
  refine (matchesCell_ofTasks placed rfl rfl rfl kept).trans ?_
  change ((row.task.groupId.map (Task.textCell .bytes)).getD .null).equals _ _ = _
  cases grouped : row.task.groupId with
  | none => rfl
  | some own =>
    rw [grouped, Option.map_some, Option.some.injEq] at whole
    simp only [Option.map_some, Option.getD_some, Option.some.injEq, Task.textCell,
      TextEncoding.keep, whole]
    exact Cell.equals_text _ _

theorem hasResult_ofTasks (kept : row.Kept) :
    DatabaseStore.hasResult (ofTasks rows) row = row.task.isDone := by
  have placed : (ofTasks rows).place? "result" = some 7 := searches_ofTasks.2.2.2
  have whole : row.task.result.beforeNul = row.task.result := by
    have same := congrArg Task.result kept.asRow
    rwa [Task.asRow_eq] at same
  have cell : (ofTasks rows).cell row 7 = .text row.task.result :=
    (cell_ofTasks kept 6).trans (congrArg Cell.text whole)
  have empty := Cell.equals_text row.task.result []
  unfold DatabaseStore.hasResult
  rw [placed]
  dsimp only
  rw [cell]
  change (true && !(Cell.text row.task.result).equals .binary (.text [])) = _
  rw [empty, Task.isDone]
  cases row.task.result <;> rfl

theorem reads_ofTasks :
    forTasks.missing? Task.readColumns = none ∧
      ∀ name ∈ ["id", "project_id", "group_id", "result"], forTasks.collationFault? name =
        none := by
  decide +kernel

end Relation

namespace DatabaseStore
variable {store : DatabaseStore} {table : TableStore} {rows : List Row} {largest : Option Int64}

/-- A query finds the rows that the search finds, if they meet the other condition. -/
theorem select_ofRows (holds : store.contents = .ofRows rows largest) {column : String}
    {value : Cell} {also : Option (String × (Relation → Row → Bool))} {found : List Row}
    (known : ∀ name ∈ column :: (also.map Prod.fst).toList,
      name ∈ ["id", "project_id", "group_id", "result"])
    (search : (Relation.ofTasks rows).search column value = { rows := found })
    (legible : ∀ row ∈ found, row.unread = []) :
    store.select column value also =
      .ok (.ofTasks rows, { rows := found.filter (fun row =>
        also.all (fun (_, meets) => meets (.ofTasks rows) row)) }) := by
  have tasks : store.contents.tasks = some (.ofTasks rows) := by
    rw [holds, Database.tasks_ofRows]
  have missing : (Relation.ofTasks rows).missing? Task.readColumns = none :=
    Relation.reads_ofTasks.1
  have collated : ((if column = "id" then [] else ["id"]) ++
      column :: (also.map Prod.fst).toList).findSome? (Relation.ofTasks rows).collationFault? =
        none := by
    refine List.findSome?_eq_none_iff.mpr (fun name member => Relation.reads_ofTasks.2 name ?_)
    rcases List.mem_append.mp member with first | other
    · split at first
      · cases first
      · exact List.mem_singleton.mp first ▸ List.mem_cons_self
    · exact known name other
  have whole (rows : List Row) (legible : ∀ row ∈ rows, row.unread = []) (columns : List Nat) :
      Search.keep { rows } columns (fun _ => true) = { rows } := by
    rw [Search.keep_legible legible, List.filter_true]
  unfold select
  rw [tasks]
  dsimp only
  rw [missing, collated]
  dsimp only [Option.map_none, Option.none_or]
  rw [search]
  cases also with
  | none =>
    rw [whole found legible]
    simp
  | some other =>
    dsimp only
    rw [@Search.keep_legible { rows := found } _ (other.2 (Relation.ofTasks rows)) legible,
      whole _ (fun row member => legible row (List.mem_filter.mp member).1)]
    rfl

/-- A query for a text of an indexed column finds the rows that hold it. -/
theorem select_text (holds : store.contents = .ofRows rows largest) (keeps : ∀ row ∈ rows, row.Kept)
    (ordered : Row.InOrder rows) {column : String} (listed : column ∈ ["project_id", "group_id"])
    {text : Text} {meets : Row → Bool}
    (same : ∀ row ∈ rows, (Relation.ofTasks rows).matchesCell column (Task.textCell .bytes text)
      row = meets row) (also : Option (String × (Relation → Row → Bool)))
    (known : ∀ name ∈ (also.map Prod.fst).toList,
      name ∈ ["id", "project_id", "group_id", "result"]) :
    store.select column (store.keptText text) also =
      .ok (.ofTasks rows, { rows := (rows.filter meets).filter (fun row =>
        also.all (fun (_, meets) => meets (.ofTasks rows) row)) }) := by
  have bound : store.keptText text = Task.textCell .bytes text := by
    unfold keptText Task.textCell
    rw [encoding_ofRows holds]
  have search := Relation.search_indexed listed ordered (Task.textCell .bytes text)
  rw [List.filter_congr same] at search
  have readable : ∀ name ∈ column :: (also.map Prod.fst).toList,
      name ∈ ["id", "project_id", "group_id", "result"] := by
    refine List.forall_mem_cons.mpr ⟨?_, known⟩
    rcases List.mem_cons.mp listed with rfl | listed
    · simp
    · obtain rfl := List.mem_singleton.mp listed
      simp
  rw [bound]
  exact select_ofRows holds readable search
    (fun row member => (keeps row (List.mem_filter.mp member).1).legible)

theorem find?_mirrors (mirrors : store.Mirrors table) (id : UInt64) :
    store.picking (store.select "id" (.integer id.toInt64) none) =
      { value := table.contents.bind (fun table => table.find? id), state := store } := by
  obtain ⟨rows, largest, holds, reads, keeps, ordered⟩ := mirrors.contents
  have legible : ∀ row ∈ (rows.find? (fun row => row.number = id.toInt64)).toList,
      row.unread = [] := by
    intro row member
    exact (keeps row (List.mem_of_find?_eq_some (Option.mem_toList.mp member))).legible
  rw [select_ofRows holds (by simp) (Relation.search_id _) legible, reads, Option.bind_some,
    TaskTable.find?_ofRows]
  unfold picking
  rw [encoding_ofRows holds]
  cases rows.find? (fun row => row.number = id.toInt64) <;> rfl

/-- Rows that are listed are those of the table that they are read as. -/
theorem listing_mirrors {rows : List Row} {largest : Option Int64}
    (holds : store.contents = .ofRows rows largest)
    (reads : table.contents = some (.ofRows rows largest)) {meets : Row → Bool}
    {query : TaskTable → List Task}
    (same : query (.ofRows rows largest) = (rows.filter meets).map Row.task) :
    store.listing (.ok (.ofTasks rows, { rows := rows.filter meets })) =
      { value := (table.listing query).value, state := store,
        log := (table.listing query).log } := by
  unfold listing TableStore.listing
  rw [reads, encoding_ofRows holds]
  dsimp only
  rw [same]
  rfl

theorem ofProject_mirrors (mirrors : store.Mirrors table) (project : Text) :
    store.listing (store.select "project_id" (store.keptText project) none) =
      { value := (table.listing (fun table => table.ofProject project)).value
        state := store
        log := (table.listing (fun table => table.ofProject project)).log } := by
  obtain ⟨rows, largest, holds, reads, keeps, ordered⟩ := mirrors.contents
  have selected := select_text holds keeps ordered (List.mem_cons_self)
    (fun row member => Relation.matches_project (keeps row member) project)
    none (by simp)
  rw [selected, List.filter_filter]
  refine listing_mirrors holds reads ?_
  unfold TaskTable.ofProject TaskTable.ofRows
  rw [List.filter_map]
  rfl

theorem doneInGroup_mirrors (mirrors : store.Mirrors table) (group : Text) :
    store.listing (store.select "group_id" (store.keptText group) (some ("result", hasResult))) =
      { value := (table.listing (fun table => table.doneInGroup group)).value
        state := store
        log := (table.listing (fun table => table.doneInGroup group)).log } := by
  obtain ⟨rows, largest, holds, reads, keeps, ordered⟩ := mirrors.contents
  have selected := select_text holds keeps ordered (List.mem_cons_of_mem _ List.mem_cons_self)
    (fun row member => Relation.matches_group (keeps row member) group)
    (some ("result", hasResult)) (by simp)
  rw [selected, List.filter_filter]
  refine listing_mirrors holds reads ?_
  unfold TaskTable.doneInGroup TaskTable.ofRows
  rw [List.filter_map]
  refine congrArg (List.map Row.task) (List.filter_congr (fun row member => ?_))
  simp [Relation.hasResult_ofTasks (keeps row member), Bool.and_comm]

end DatabaseStore
end CodeAudit
