import CodeAudit.Proofs.Store.Programs
import Mathlib.Algebra.Ring.Int.Defs

/-! The contents that the two backends come to. Their rows are the same but for what each has drawn,
and the next id of the one is one more than the largest that the other has seen. -/
namespace CodeAudit

open TaskStore

/-- What a data step is reported as, whatever the cause. -/
inductive ResultCode where
  | ok | notFound | alreadyExists | constraintViolation | corruption | internalError
deriving DecidableEq, Repr

def StoreError.code : StoreError → ResultCode
  | missing _ => .notFound
  | taken _ | conflict _ => .alreadyExists
  | violation _ => .constraintViolation
  | engine .damaged => .corruption
  | engine _ => .internalError

def resultCode : Except StoreError Unit → ResultCode
  | .ok () => .ok
  | .error cause => cause.code

def Task.texts (t : Task) : List Text :=
  [t.uuid, t.projectId, t.name, t.content, t.rule, t.ruleKey, t.result, t.contractCode, t.startLine,
    t.endLine,
    t.relativePath, t.absolutePath, t.recommendation, t.flowCode, t.scanRecord, t.shortResult] ++
      t.groupId.toList

def DataStep.texts : DataStep → List Text
  | insert task => task.texts
  | find _ => []
  | ofProject project => [project]
  | doneInGroup group => [group]
  | write _ _ value => [value]

namespace Request

/-- The uuid that the table gets, if the step inserts a task. -/
def uuid? (request : Request) : Option Text :=
  match request.step with
  | .insert given => some (given.fill (request.drawn .table)).uuid
  | _ => none

/-- No text goes on after a NUL, and an id that a task brings is one of the first half of the signed
ones. -/
structure Fair (request : Request) : Prop where
  plain : ∀ text ∈ request.step.texts, 0 ∉ text
  drawnPlain : 0 ∉ (request.drawn .table).uuid
  bounded : ∀ given, request.step = .insert given → given.id.toNat ≤ 2 ^ 62

/-- The same task but for what each backend has drawn for the request that has brought it. -/
def Brings (request : Request) (memory table : Task) : Prop :=
  ∃ given draft : Task, request.step = .insert given ∧ draft.uuid = given.uuid ∧
    draft.createdAt = given.createdAt ∧
    memory = draft.fill (request.drawn .memory) ∧ table = draft.fill (request.drawn .table)

end Request

/-- The same task, but for what has been drawn for it on one occasion. -/
def Task.SameBut (requests : List Request) (memory table : Task) : Prop :=
  ∃ request ∈ requests, request.Brings memory table

/-- Answers with the same codes, ids, tasks and lists. -/
inductive DataStep.Answer.Agree (requests : List Request) : DataStep.Answer →
    DataStep.Answer → Prop where
  | inserted : Task.SameBut requests first second →
      Agree requests (.inserted { status := .ok (), task := first })
        (.inserted { status := .ok (), task := second })
  | refused : request ∈ requests → request.step = .insert given → cause.code = other.code →
      Agree requests (.inserted { status := .error cause, task := given })
        (.inserted { status := .error other, task := given.fill (request.drawn .table) })
  | found : Option.Rel (Task.SameBut requests) first second →
      Agree requests (.found first) (.found second)
  | listed : List.Forall₂ (Task.SameBut requests) first second →
      Agree requests (.listed first) (.listed second)
  | wrote : resultCode first = resultCode second → Agree requests (.wrote first) (.wrote second)

/-! ### Ids, signed and unsigned -/

theorem toInt_toInt64 {id : UInt64} (small : id.toNat < 2 ^ 63) : id.toInt64.toInt = id.toNat := by
  simp only [UInt64.toInt64, Int64.toInt, BitVec.toInt_eq_toNat_cond, Int64.toBitVec]
  have same : id.toBitVec.toNat = id.toNat := rfl
  rw [same]
  omega

theorem toNat_toUInt64 {i : Int64} (nonneg : 0 ≤ i.toInt) : (i.toUInt64.toNat : Int) = i.toInt := by
  have same : i.toUInt64.toNat = i.toBitVec.toNat := rfl
  have bound := i.toBitVec.isLt
  simp only [Int64.toInt, BitVec.toInt_eq_toNat_cond] at nonneg ⊢
  rw [same]
  omega

theorem toInt_succ {i : Int64} (notLast : i.toInt < 2 ^ 63 - 1) : (i + 1).toInt = i.toInt + 1 := by
  have one : (1 : Int64).toInt = 1 := rfl
  have least := i.le_toInt
  rw [Int64.toInt_add, one]
  exact Int.bmod_eq_of_le (by omega) (by omega)

theorem toInt_max (i j : Int64) : (max i j).toInt = max i.toInt j.toInt := by
  have same : max i j = if i ≤ j then j else i := rfl
  rw [same]
  split
  next below =>
    rw [Int64.le_iff_toInt_le] at below
    omega
  next above =>
    rw [Int64.le_iff_toInt_le] at above
    omega

/-- Ids that are small enough are in the same order either way. -/
theorem toInt64_lt_iff {id other : UInt64} (small : id.toNat < 2 ^ 63)
    (smaller : other.toNat < 2 ^ 63) :
    id.toInt64 < other.toInt64 ↔ id < other := by
  rw [Int64.lt_iff_toInt_lt, UInt64.lt_iff_toNat_lt, toInt_toInt64 small, toInt_toInt64 smaller]
  exact Int.ofNat_lt

/-! ### Texts -/

theorem beforeNul_plain {text : Text} (plain : 0 ∉ text) : text.beforeNul = text := by
  refine List.takeWhile_eq_self_iff.mpr (fun byte member => ?_)
  exact bne_iff_ne.mpr (fun null => plain (null ▸ member))

theorem Task.asRow_plain {t : Task} (plain : ∀ text ∈ t.texts, 0 ∉ text) : t.asRow = t := by
  have kept (text : Text) (member : text ∈ t.texts) : text.beforeNul = text :=
    beforeNul_plain (plain text member)
  have group : t.groupId.map Text.beforeNul = t.groupId := by
    cases grouped : t.groupId with
    | none => rfl
    | some group => exact congrArg some (kept group (by simp [texts, grouped]))
  simp only [texts, List.forall_mem_append, List.forall_mem_cons] at kept
  simp only [asRow_eq, cut, kept, group]

theorem Task.fill_texts {t : Task} {fresh : Fresh} {text : Text}
    (member : text ∈ (t.fill fresh).texts) :
    text = fresh.uuid ∨ text ∈ t.texts := by
  simp only [texts, fill, List.cons_append, List.mem_cons] at member ⊢
  rcases member with rfl | member
  · split
    · exact .inl rfl
    · exact .inr (.inl rfl)
  · exact .inr (.inr member)

/-! ### Rows -/

namespace Task
variable {requests more : List Request} {memory table : Task}

theorem SameBut.eq (same : SameBut requests memory table) :
    memory = { table with uuid := memory.uuid, createdAt := memory.createdAt } := by
  obtain ⟨_, _, _, _, _, _, _, rfl, rfl⟩ := same
  rfl

theorem SameBut.id (same : SameBut requests memory table) : memory.id = table.id := by
  rw [same.eq]

theorem SameBut.mono (same : SameBut requests memory table) (wider : requests ⊆ more) :
    SameBut more memory table := by
  obtain ⟨request, member, brings⟩ := same
  exact ⟨request, wider member, brings⟩

theorem SameBut.write (same : SameBut requests memory table) (column : Column) (value : Text) :
    SameBut requests (memory.write column value) (table.write column value) := by
  obtain ⟨request, member, given, draft, inserts, uuid, time, rfl, rfl⟩ := same
  refine ⟨request, member, given, draft.write column value, inserts, ?_, ?_, ?_, ?_⟩
  all_goals cases column
  all_goals first | exact uuid | exact time | rfl

/-- The uuid in the table is that of the request. -/
theorem SameBut.uuid (same : SameBut requests memory table) :
    table.uuid ∈ requests.filterMap Request.uuid? := by
  obtain ⟨request, member, given, draft, inserts, uuid, _, _, rfl⟩ := same
  refine List.mem_filterMap.mpr ⟨request, member, ?_⟩
  simp only [Request.uuid?, inserts, fill, uuid]

end Task

/-! ### Contents -/

/-- The contents that the backends come to after some requests. -/
structure Alike (done : List Request) (memory : MemoryStore.Contents)
    (table : TaskTable) : Prop where
  rows : List.Forall₂ (Task.SameBut done) memory.tasks table.rows
  next : (memory.nextId.toNat : Int) = table.sequence.toInt + 1
  counted : 0 ≤ table.sequence.toInt
  numbered : ∀ row ∈ table.rows, (row.id.toNat : Int) ≤ table.sequence.toInt
  /-- Ids are given out one by one. -/
  early : table.sequence.toInt ≤ 2 ^ 62 + done.length

variable {done more : List Request} {request : Request} {memory : MemoryStore.Contents}
  {table : TaskTable} {tasks rows : List Task} {given row stored : Task}

theorem find?_sameBut (same : List.Forall₂ (Task.SameBut done) tasks rows) (id : UInt64) :
    Option.Rel (Task.SameBut done) (tasks.find? (fun t => t.id = id))
      (rows.find? (fun t => t.id = id)) := by
  induction same with
  | nil => exact .none
  | @cons first second _ _ head _ ih =>
    have ids : first.id = second.id := head.id
    by_cases here : second.id = id
    · rw [List.find?_cons_of_pos (by simpa [ids] using here),
        List.find?_cons_of_pos (by simpa using here)]
      exact .some head
    · rw [List.find?_cons_of_neg (by simpa [ids] using here),
        List.find?_cons_of_neg (by simpa using here)]
      exact ih

/-- An id is missing in both or in neither. -/
theorem missing_sameBut (same : List.Forall₂ (Task.SameBut done) tasks rows) (id : UInt64) :
    tasks.find? (fun t => t.id = id) = none ↔ rows.find? (fun t => t.id = id) = none := by
  have found := find?_sameBut same id
  generalize tasks.find? (fun t => t.id = id) = first at found ⊢
  generalize rows.find? (fun t => t.id = id) = second at found ⊢
  cases found <;> simp

theorem uuids_sameBut (same : List.Forall₂ (Task.SameBut done) tasks rows) :
    ∀ row ∈ rows, row.uuid ∈ done.filterMap Request.uuid? := by
  induction same with
  | nil => exact fun row member => absurd member List.not_mem_nil
  | cons head _ ih => exact List.forall_mem_cons.mpr ⟨head.uuid, ih⟩

/-- Whatever is selected by what has not been drawn. -/
theorem filter_sameBut (same : List.Forall₂ (Task.SameBut done) tasks rows) {chosen : Task → Bool}
    (undrawn : ∀ (t : Task) uuid time, chosen { t with uuid, createdAt := time } = chosen t) :
    List.Forall₂ (Task.SameBut done) (tasks.filter chosen) (rows.filter chosen) := by
  refine List.rel_filter (fun first second head => ?_) same
  have agree : chosen first = chosen second := by
    rw [head.eq]
    exact undrawn second first.uuid first.createdAt
  simp only [agree]

theorem map_sameBut (same : List.Forall₂ (Task.SameBut done) tasks rows) (column : Task.Column)
    (id : UInt64) (value : Text) :
    List.Forall₂ (Task.SameBut done)
      (tasks.map (fun t => if t.id = id then t.write column value else t))
      (rows.map (fun t => if t.id = id then t.write column value else t)) := by
  refine List.rel_map (fun first second head => ?_) same
  have ids : first.id = second.id := head.id
  simp only [ids]
  split
  · exact head.write column value
  · exact head

/-- A new row comes to the same place. -/
theorem place_sameBut (same : List.Forall₂ (Task.SameBut done) tasks rows)
    (own : Task.SameBut done stored row) (small : row.id.toNat < 2 ^ 63)
    (others : ∀ other ∈ rows, other.id.toNat < 2 ^ 63 ∧ other.id ≠ row.id) :
    List.Forall₂ (Task.SameBut done) (MemoryStore.Contents.place stored tasks)
      (TaskTable.place row rows) := by
  have id : stored.id = row.id := own.id
  induction same with
  | nil => exact .cons own .nil
  | @cons first second _ _ head tail ih =>
    obtain ⟨⟨smaller, different⟩, rest⟩ := List.forall_mem_cons.mp others
    have ids : first.id = second.id := head.id
    simp only [MemoryStore.Contents.place, TaskTable.place, id, ids, toInt64_lt_iff small smaller]
    split
    · exact .cons own (.cons head tail)
    · rw [if_neg (Ne.symm different)]
      exact .cons head (ih rest)

theorem Alike.mono (alike : Alike done memory table) (more : List Request) :
    Alike (done ++ more) memory table := by
  refine ⟨alike.rows.imp (fun _ _ same => same.mono (List.subset_append_left _ _)), alike.next,
    alike.counted,
    alike.numbered, ?_⟩
  have early := alike.early
  rw [List.length_append]
  omega

/-- One more than the largest id there has been. -/
theorem Alike.nextId? (alike : Alike done memory table) :
    table.nextId? = if table.sequence = Int64.maxValue then none
      else some (table.sequence + 1) := by
  obtain ⟨_, _, counted, numbered, _⟩ := alike
  have most := table.sequence.toInt_lt
  have largest : Int64.maxValue.toInt = 2 ^ 63 - 1 := rfl
  -- The last row has been counted, so it is never ahead of the largest id there has been.
  have behind (last : Task) (member : last ∈ table.rows) : last.id.toInt64.toInt ≤
      table.sequence.toInt := by
    have := numbered last member
    rwa [toInt_toInt64 (by omega)]
  unfold TaskTable.nextId?
  by_cases spent : table.sequence = Int64.maxValue
  · simp only [spent, or_true, if_true]
  have unspent : table.sequence.toInt ≠ 2 ^ 63 - 1 :=
    fun same => spent (Int64.toInt_inj.mp (same.trans largest.symm))
  have up := toInt_succ (i := table.sequence) (by omega)
  have one : (1 : Int64).toInt = 1 := rfl
  rcases last : table.rows.getLast? with _ | row
  · have none : table.rows = [] := List.getLast?_eq_none_iff.mp last
    have first : (0 : Int64) ≠ Int64.maxValue := by decide
    simp only [none, Option.map_none, Option.getD_none, spent, first, or_self, if_false,
      List.isEmpty_nil, if_true,
      Option.some.injEq]
    rw [← Int64.toInt_inj, toInt_max, up, one]
    omega
  · have member : row ∈ table.rows := List.mem_of_getLast? last
    have some : table.rows.isEmpty = false := by
      rw [List.isEmpty_eq_false_iff]
      exact List.ne_nil_of_mem member
    have under := behind row member
    have notLast : row.id.toInt64 ≠ Int64.maxValue :=
      fun same => unspent (by rw [same, largest] at under; omega)
    simp only [Option.map_some, Option.getD_some, spent, notLast, or_self, if_false, some,
      Bool.false_eq_true,
      Option.some.injEq]
    rw [← Int64.toInt_inj, toInt_max, up, toInt_succ (by omega)]
    omega

/-- A task put under an id that is not taken. -/
theorem Alike.place (alike : Alike done memory table)
    (own : Task.SameBut (done ++ [request]) stored row)
    (free : ∀ other ∈ table.rows, other.id ≠ row.id)
    (near : (row.id.toNat : Int) ≤ 2 ^ 62 + done.length + 1) (small : row.id.toNat < 2 ^ 63) :
    Alike (done ++ [request])
      { tasks := MemoryStore.Contents.place stored memory.tasks,
        nextId := max memory.nextId (stored.id + 1) }
      { rows := TaskTable.place row table.rows,
        sequence := max table.sequence row.id.toInt64 } := by
  have wider := alike.mono [request]
  have most := table.sequence.toInt_lt
  have others (other : Task) (member : other ∈ table.rows) : other.id.toNat < 2 ^ 63 ∧
      other.id ≠ row.id := by
    have := alike.numbered other member
    exact ⟨by omega, free other member⟩
  have signed : (max table.sequence row.id.toInt64).toInt =
      max table.sequence.toInt row.id.toNat := by
    rw [toInt_max, toInt_toInt64 small]
  refine ⟨place_sameBut wider.rows own small others, ?_, ?_, fun other member => ?_, ?_⟩
  · have one : (1 : UInt64).toNat = 1 := rfl
    have next := alike.next
    rw [signed, UInt64.toNat_max, own.id, UInt64.toNat_add, one]
    omega
  · have := alike.counted
    rw [signed]
    omega
  · rw [signed]
    rcases TaskTable.mem_place.mp member with rfl | member
    · omega
    · have := alike.numbered other member
      omega
  · have := alike.early
    rw [signed, List.length_append, List.length_singleton]
    omega

/-! ### Data steps -/

/-- What the two backends make of a request: their answers agree, and their contents are alike
still. -/
def Corresponds (requests : List Request) (first : DataStep.Answer × MemoryStore.Contents)
    (second : DataStep.Answer × TableStore) : Prop :=
  DataStep.Answer.Agree requests first.1 second.1 ∧
    ∃ table, second.2 = { contents := some table } ∧ Alike requests first.2 table

theorem writing_table (statement : TaskTable → Except StoreError TaskTable) :
    TableStore.writing { contents := some table } statement =
      match statement table with
      | .ok changed => (.ok (), { contents := some changed })
      | .error cause => (.error cause, { contents := some table }) := rfl

theorem insert_taken {fresh : Fresh} (own : given.id ≠ 0) (taken : (memory.find? given.id).isSome) :
    memory.insert fresh given =
      ({ status := .error (.taken given.id), task := given }, memory) := by
  unfold MemoryStore.Contents.insert
  rw [if_pos ⟨own, taken⟩]

theorem insert_free {fresh : Fresh} {draft : Task}
    (drafted : draft = { given with id := if given.id = 0 then memory.nextId else given.id })
    (free : given.id = 0 ∨ memory.find? given.id = none) :
    memory.insert fresh given = ({ status := .ok (), task := draft.fill fresh },
      { tasks := MemoryStore.Contents.place (draft.fill fresh) memory.tasks,
        nextId := max memory.nextId ((draft.fill fresh).id + 1) }) := by
  have untaken : ¬(given.id ≠ 0 ∧ (memory.find? given.id).isSome) := by
    rintro ⟨own, taken⟩
    rw [free.resolve_left own] at taken
    contradiction
  unfold MemoryStore.Contents.insert
  rw [if_neg untaken, drafted]

/-- The table keeps what it is given as it is. -/
theorem fill_plain (fair : request.Fair) (inserts : request.step = .insert given) {draft : Task}
    (same : draft = { given with id := draft.id }) :
    (draft.fill (request.drawn .table)).asRow = draft.fill (request.drawn .table) := by
  refine Task.asRow_plain (fun text member => ?_)
  have plain := fair.plain
  have texts : draft.texts = given.texts := by
    rw [same]
    rfl
  rw [inserts, DataStep.texts, ← texts] at plain
  rcases Task.fill_texts member with rfl | member
  · exact fair.drawnPlain
  · exact plain text member

theorem insertRow_free (free : ∀ other ∈ table.rows, other.id ≠ row.id)
    (unique : ∀ other ∈ table.rows, other.uuid ≠ row.uuid) :
    table.insertRow row =
      .ok { rows := TaskTable.place row table.rows,
            sequence := max table.sequence row.id.toInt64 } := by
  have noId : table.find? row.id = none := List.find?_eq_none.mpr (by simpa using free)
  have noUuid : ¬table.rows.any (fun t => t.uuid = row.uuid) := by simpa using unique
  unfold TaskTable.insertRow
  rw [noId, if_neg (by simp), if_neg noUuid]

/-- A task that is inserted under a free id comes to both. -/
theorem Alike.add (alike : Alike done memory table) (fair : request.Fair)
    (inserts : request.step = .insert given)
    (fresh : (given.fill (request.drawn .table)).uuid ∉ done.filterMap Request.uuid?) {draft : Task}
    (same : draft = { given with id := draft.id })
    (free : ∀ other ∈ table.rows, other.id ≠ draft.id)
    (near : (draft.id.toNat : Int) ≤ 2 ^ 62 + done.length + 1) (small : draft.id.toNat < 2 ^ 63) :
    ∃ changed, table.insertRow (draft.fill (request.drawn .table)).asRow = .ok changed ∧
      Task.SameBut (done ++ [request]) (draft.fill (request.drawn .memory))
        (draft.fill (request.drawn .table)) ∧
      Alike (done ++ [request])
        { tasks := MemoryStore.Contents.place (draft.fill (request.drawn .memory)) memory.tasks,
          nextId := max memory.nextId ((draft.fill (request.drawn .memory)).id + 1) } changed := by
  have uuid : draft.uuid = given.uuid := by rw [same]
  have time : draft.createdAt = given.createdAt := by rw [same]
  have own : Task.SameBut (done ++ [request]) (draft.fill (request.drawn .memory))
      (draft.fill (request.drawn .table)) :=
    ⟨request, List.mem_append_right _ List.mem_cons_self, given, draft, inserts, uuid,
      time, rfl, rfl⟩
  rw [fill_plain fair inserts same]
  refine ⟨_, insertRow_free free (fun other member taken => fresh ?_), own,
    alike.place own free near small⟩
  have filled : (draft.fill (request.drawn .table)).uuid =
      (given.fill (request.drawn .table)).uuid := by
    simp only [Task.fill, uuid]
  rw [← filled, ← taken]
  exact uuids_sameBut alike.rows other member

theorem Alike.insert (alike : Alike done memory table) (fair : request.Fair)
    (inserts : request.step = .insert given)
    (fresh : (given.fill (request.drawn .table)).uuid ∉ done.filterMap Request.uuid?)
    (lasting : (TableStore.insert (request.drawn .table) given { contents := some table }).1.status
      ≠
      .error (.engine .full)) :
    Corresponds (done ++ [request])
      (.inserted (memory.insert (request.drawn .memory) given).1,
        (memory.insert (request.drawn .memory) given).2)
      (.inserted (TableStore.insert (request.drawn .table) given { contents := some table }).1,
        (TableStore.insert (request.drawn .table) given { contents := some table }).2) := by
  have last : request ∈ done ++ [request] := List.mem_append_right _ List.mem_cons_self
  have most := table.sequence.toInt_lt
  have numbered := alike.numbered
  by_cases blank : given.id = 0
  · have next : Option.map TaskTable.nextId? ({ contents := some table } : TableStore).contents =
        some (if table.sequence = Int64.maxValue then none else some (table.sequence + 1)) :=
          congrArg some alike.nextId?
    by_cases spent : table.sequence = Int64.maxValue
    · rw [if_pos spent] at next
      rw [TableStore.insert_refused blank next] at lasting
      exact absurd rfl lasting
    · rw [if_neg spent] at next
      have early := alike.early
      have counted := alike.counted
      have unspent : table.sequence.toInt ≠ 2 ^ 63 - 1 :=
        fun same => spent (Int64.toInt_inj.mp same)
      have up := toInt_succ (i := table.sequence) (by omega)
      have unsigned := toNat_toUInt64 (i := table.sequence + 1) (by omega)
      have step := alike.next
      have id : memory.nextId = (table.sequence + 1).toUInt64 := UInt64.toNat_inj.mp (by omega)
      have free (other : Task) (member : other ∈ table.rows) : other.id ≠ memory.nextId := by
        intro same
        have := numbered other member
        rw [same] at this
        omega
      obtain ⟨draft, drafted⟩ : ∃ draft : Task, draft = { given with id := memory.nextId } :=
        ⟨_, rfl⟩
      have number : draft.id = memory.nextId := by rw [drafted]
      obtain ⟨changed, done, same, alike⟩ :=
        alike.add fair inserts fresh (number ▸ drafted) (number ▸ free)
        (by rw [number]; omega) (by rw [number]; omega)
      have filled : { given.fill (request.drawn .table) with id := (table.sequence + 1).toUInt64 } =
          draft.fill (request.drawn .table) := by rw [drafted, ← id]; rfl
      rw [insert_free (drafted.trans (by rw [if_pos blank])) (.inl blank),
        TableStore.insert_numbered blank next,
        filled, writing_table, done]
      exact ⟨.inserted same, changed, rfl, alike⟩
  · rw [TableStore.insert_own blank, writing_table]
    rcases here : memory.find? given.id with _ | mine
    · have free (other : Task) (member : other ∈ table.rows) : other.id ≠ given.id := by
        simpa using List.find?_eq_none.mp ((missing_sameBut alike.rows given.id).mp here)
          other member
      have bounded := fair.bounded given inserts
      obtain ⟨changed, done, same, alike⟩ :=
        alike.add fair inserts fresh rfl free (by omega) (by omega)
      rw [insert_free (by rw [if_neg blank]) (.inr here), done]
      exact ⟨.inserted same, changed, rfl, alike⟩
    · have taken : table.find? given.id ≠ none := by
        intro none
        rw [MemoryStore.Contents.find?, (missing_sameBut alike.rows given.id).mpr none] at here
        contradiction
      have refused : table.insertRow (given.fill (request.drawn .table)).asRow =
          .error (.repeated "id") := by
        unfold TaskTable.insertRow
        exact if_pos (Option.isSome_iff_ne_none.mpr taken)
      rw [insert_taken blank (here ▸ rfl), refused]
      exact ⟨.refused last inserts rfl, table, rfl, alike.mono [request]⟩

theorem Alike.write (alike : Alike done memory table) {column : Task.Column} {id : UInt64}
    {value : Text} (plain : value.beforeNul = value) :
    Corresponds done (.wrote (memory.write column id value).1, (memory.write column id value).2)
      (.wrote (TableStore.writing { contents := some table }
        (fun table => table.write column id value)).1,
        (TableStore.writing { contents := some table }
          (fun table => table.write column id value)).2) := by
  rw [writing_table]
  unfold MemoryStore.Contents.write TaskTable.write
  have missing : memory.find? id = none ↔ table.find? id = none := missing_sameBut alike.rows id
  rcases here : memory.find? id with _ | mine
  · rw [missing.mp here]
    exact ⟨.wrote rfl, table, rfl, alike⟩
  · rcases there : table.find? id with _ | theirs
    · rw [missing.mpr there] at here
      contradiction
    · refine ⟨.wrote rfl, _, rfl, ?_⟩
      rw [plain]
      refine ⟨map_sameBut alike.rows column id value, alike.next, alike.counted, fun row member =>
        ?_, alike.early⟩
      obtain ⟨old, inside, rfl⟩ := List.mem_map.mp member
      have numbered := alike.numbered old inside
      split
      · cases column <;> exact numbered
      · exact numbered

/-- A step of a request, with what each backend draws for it. -/
theorem Alike.apply (alike : Alike done memory table) (fair : request.Fair)
    (fresh : ∀ uuid, request.uuid? = some uuid → uuid ∉ done.filterMap Request.uuid?)
    (lasting : ¬(TableStore.apply (request.drawn .table) request.step
      { contents := some table }).1.Exhausted) :
    Corresponds (done ++ [request]) (MemoryStore.apply (request.drawn .memory) request.step memory)
      (TableStore.apply (request.drawn .table) request.step { contents := some table }) := by
  have wider := alike.mono [request]
  rcases step : request.step with given | id | project | group | ⟨column, id, value⟩
  · rw [step] at lasting
    refine alike.insert fair step (fresh _ (by simp only [Request.uuid?, step]))
      (fun spent => lasting ?_)
    exact ⟨_, congrArg DataStep.Answer.inserted (congrArg (Insertion.mk · _) spent)⟩
  · exact ⟨.found (find?_sameBut wider.rows id), table, rfl, wider⟩
  · have plain : project.beforeNul = project :=
      beforeNul_plain (fair.plain project (by rw [step]; exact List.mem_cons_self))
    refine ⟨.listed ?_, table, rfl, wider⟩
    change List.Forall₂ _ _ (table.rows.filter (fun t => t.projectId = project.beforeNul))
    rw [plain]
    exact filter_sameBut wider.rows (fun _ _ _ => rfl)
  · have plain : group.beforeNul = group :=
      beforeNul_plain (fair.plain group (by rw [step]; exact List.mem_cons_self))
    refine ⟨.listed ?_, table, rfl, wider⟩
    change List.Forall₂ _ _
      (table.rows.filter (fun t => t.groupId = some group.beforeNul ∧ t.isDone))
    rw [plain]
    exact filter_sameBut wider.rows (fun _ _ _ => rfl)
  · exact wider.write (beforeNul_plain (fair.plain value (by rw [step]; exact List.mem_cons_self)))

theorem insertRow_lasts (table : TaskTable) (row : Task) :
    table.insertRow row ≠ .error (.engine .full) := by
  unfold TaskTable.insertRow
  split
  · simp [StoreError.repeated]
  · split <;> simp [StoreError.repeated]

/-- Ids last for a long time. -/
theorem Alike.exhausted (alike : Alike done memory table) {fresh : Fresh} {step : DataStep}
    (exhausted : (TableStore.apply fresh step { contents := some table }).1.Exhausted) :
    2 ^ 62 ≤ done.length + 1 := by
  obtain ⟨task, spent⟩ := exhausted
  cases step with
  | insert given =>
    rw [TableStore.apply_insert] at spent
    have full := congrArg Insertion.status (DataStep.Answer.inserted.inj spent)
    have placed (row : Task) :
        (TableStore.writing { contents := some table } (fun table => table.insertRow row)).1 ≠
        .error (.engine .full) := by
      rw [writing_table]
      have lasts := insertRow_lasts table row
      split
      · exact fun same => nomatch same
      next cause refused =>
        exact fun same => lasts (refused.trans (congrArg Except.error (Except.error.inj same)))
    by_cases blank : given.id = 0
    · have next : Option.map TaskTable.nextId? ({ contents := some table } : TableStore).contents =
          some (if table.sequence = Int64.maxValue then none else some (table.sequence + 1)) :=
        congrArg some alike.nextId?
      by_cases last : table.sequence = Int64.maxValue
      · have early := alike.early
        have largest : Int64.maxValue.toInt = 2 ^ 63 - 1 := rfl
        rw [last, largest] at early
        omega
      · rw [if_neg last] at next
        rw [TableStore.insert_numbered blank next] at full
        exact absurd full (placed _)
    · rw [TableStore.insert_own blank] at full
      exact absurd full (placed _)
  | find | ofProject | doneInGroup | write => cases spent

end CodeAudit
