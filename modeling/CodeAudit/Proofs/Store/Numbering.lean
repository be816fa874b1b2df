import CodeAudit.Proofs.Store.Atomicity

/-! The ids of the store in memory. The next id is past every id in use except the largest number of
all, so an insertion adds a row beside the others or is refused. -/
namespace CodeAudit

open TaskStore

namespace MemoryStore

theorem place_perm {task : Task} {rows : List Task} (unused : ∀ row ∈ rows, row.id ≠ task.id) :
    (Contents.place task rows).Perm (task :: rows) := by
  induction rows with
  | nil => exact .refl _
  | cons first rest ih =>
    obtain ⟨other, unused⟩ := List.forall_mem_cons.mp unused
    simp only [Contents.place]
    split
    · exact .refl _
    · rw [if_neg (Ne.symm other)]
      exact ((ih unused).cons first).trans (.swap task first rest)

namespace Contents
variable {contents : Contents} {task row : Task} {fresh : Fresh}

/-- The next id is past every id in use; nothing is past the id `-1`. -/
structure Numbered (contents : Contents) : Prop where
  positive : 0 < contents.nextId
  past : ∀ row ∈ contents.tasks, row.id ≠ -1 → row.id < contents.nextId

theorem insert_numbered (numbered : contents.Numbered) (fresh : Fresh) (task : Task) :
    (contents.insert fresh task).2.Numbered := by
  have kept (next : UInt64) : contents.nextId ≤ max contents.nextId next := by
    rw [UInt64.le_iff_toNat_le, UInt64.toNat_max]
    exact Nat.le_max_left _ _
  have passed (next : UInt64) : next ≤ max contents.nextId next := by
    rw [UInt64.le_iff_toNat_le, UInt64.toNat_max]
    exact Nat.le_max_right _ _
  unfold insert
  split
  · exact numbered
  · constructor
    · exact UInt64.lt_of_lt_of_le numbered.positive (kept _)
    · intro row member other
      rcases mem_place member with rfl | member
      · exact UInt64.lt_of_lt_of_le (UInt64.lt_add_one other) (passed _)
      · exact UInt64.lt_of_lt_of_le (numbered.past row member other) (kept _)

theorem write_numbered (numbered : contents.Numbered) (column : Task.Column) (task : UInt64)
    (value : Text) :
    (contents.write column task value).2.Numbered := by
  unfold write
  split
  · exact numbered
  · refine ⟨numbered.positive, fun row member other => ?_⟩
    obtain ⟨before, inside, rfl⟩ := List.mem_map.mp member
    have same : (if before.id = task then before.write column value else before).id =
        before.id := by
      split
      · cases column <;> rfl
      · rfl
    rw [same] at other ⊢
    exact numbered.past before inside other

/-- What has become of the contents when the insertion of a task was answered. -/
def Adds (contents : Contents) (fresh : Fresh) (task : Task) : Insertion → Contents → Prop
  | ⟨.ok (), stored⟩, after =>
      stored = { task with id := stored.id }.fill fresh ∧ (task.id ≠ 0 → stored.id = task.id) ∧
        (task.id = 0 → ∀ row ∈ contents.tasks, row.id < stored.id) ∧
        (∀ row ∈ contents.tasks, row.id ≠ stored.id) ∧ after.tasks.Perm (stored :: contents.tasks)
  | ⟨.error cause, left⟩, after =>
      cause = .taken task.id ∧ (∃ row ∈ contents.tasks, row.id = task.id) ∧ left = task ∧
        after = contents

theorem insert_adds_iff (numbered : contents.Numbered) :
    contents.Adds fresh task (contents.insert fresh task).1 (contents.insert fresh task).2 ↔
      (task.id = 0 → ∀ row ∈ contents.tasks, row.id ≠ -1) := by
  unfold insert
  split
  next taken =>
    obtain ⟨row, found⟩ := Option.isSome_iff_exists.mp taken.2
    have same : row.id = task.id := by simpa [find?] using List.find?_some found
    refine iff_of_true ⟨rfl, ⟨row, List.mem_of_find?_eq_some found, same⟩, rfl, rfl⟩ ?_
    exact fun blank => absurd blank taken.1
  next free =>
    by_cases blank : task.id = 0
    · simp only [if_pos blank]
      constructor
      · intro adds _ row member last
        obtain ⟨_, _, past, _⟩ := adds
        have beyond : row.id < contents.nextId := past blank row member
        rw [last, UInt64.lt_iff_toNat_lt] at beyond
        have bound := contents.nextId.toNat_lt
        have top : (-1 : UInt64).toNat = 18446744073709551615 := rfl
        omega
      · intro room
        have past (row : Task) (member : row ∈ contents.tasks) : row.id < contents.nextId :=
          numbered.past row member (room blank row member)
        refine ⟨rfl, fun own => absurd blank own, fun _ => past, ?_, ?_⟩
        · exact fun row member => UInt64.ne_of_lt (past row member)
        · exact place_perm (fun row member => UInt64.ne_of_lt (past row member))
    · have unused (row : Task) (member : row ∈ contents.tasks) : row.id ≠ task.id := by
        intro same
        refine free ⟨blank, ?_⟩
        exact List.find?_isSome.mpr ⟨row, member, decide_eq_true same⟩
      simp only [if_neg blank]
      refine iff_of_true ⟨rfl, fun _ => rfl, ?_, unused, place_perm unused⟩ ?_
      all_goals exact fun none => absurd none blank

end Contents

theorem keeps_numbered :
    Keeps (fun store : MemoryStore => store.committed.Numbered)
      (fun handle => handle.contents.Numbered) :=
  keeps_contents Contents.insert_numbered Contents.write_numbered
    (fun numbered => ⟨numbered.positive, nofun⟩)

variable {handles : List Handle} {store : MemoryStore} {handle : Handle}

theorem evolves_inserted (evolves : Evolves ({} : MemoryStore) handles store)
    (member : handle ∈ handles) (fresh : Fresh) (task : Task) :
    Evolves ({} : MemoryStore)
      ({ handle with contents := (handle.contents.insert fresh task).2 } :: handles) store :=
  evolves.insert member rfl

/-- Whatever transactions have made of the store, an insertion adds one row under an id of its own
or is refused. A task that brings no id needs a number that is left for it. -/
theorem insertion_adds (evolves : Evolves ({} : MemoryStore) handles store)
    (member : handle ∈ handles) (fresh : Fresh) (task : Task)
    (room : task.id = 0 → ∀ row ∈ handle.contents.tasks, row.id ≠ -1) :
    ∃ insertion after,
      TaskStore.insert fresh task handle store =
        (insertion, { handle with contents := after }, store) ∧
      handle.contents.Adds fresh task insertion after := by
  have initial : Contents.Numbered {} := ⟨by decide, nofun⟩
  have numbered := (evolves.keeps keeps_numbered initial).2 handle member
  exact ⟨_, _, rfl, (Contents.insert_adds_iff numbered).mpr room⟩

/-- After a task with an id of its own the next id is given. -/
theorem insertion_adds_next :
    let contents : Contents := { tasks := [Backend.draft 7 "a"], nextId := 8 }
    Evolves ({} : MemoryStore) [{ contents }, { contents := {} }] {} ∧
      ∃ insertion after, TaskStore.insert ⟨[], 1⟩ (Backend.draft 0 "b") ⟨contents, .working⟩ {} =
          (insertion, { contents := after }, ({} : MemoryStore)) ∧
        contents.Adds ⟨[], 1⟩ (Backend.draft 0 "b") insertion after := by
  intro contents
  have begun : Evolves ({} : MemoryStore) [{ contents := {} }] {} := .begin .start rfl
  have numbered : Evolves ({} : MemoryStore) [{ contents }, { contents := {} }] {} :=
    evolves_inserted begun List.mem_cons_self ⟨[], 1⟩ (Backend.draft 7 "a")
  exact ⟨numbered, insertion_adds numbered List.mem_cons_self ⟨[], 1⟩ (Backend.draft 0 "b")
    (fun _ => by decide)⟩

/-- Once the largest number is an id, a task without an id is stored under it as well, in the place
of another. -/
theorem largest_id_given_twice :
    let contents : Contents :=
      { tasks := [Backend.draft 18446744073709551614 "a", Backend.draft 18446744073709551615 "b"]
        nextId := 18446744073709551615 }
    let insertion : Insertion := ⟨.ok (), Backend.draft 18446744073709551615 "c"⟩
    let after : Contents :=
      { tasks := [Backend.draft 18446744073709551614 "a", Backend.draft 18446744073709551615 "c"]
        nextId := 18446744073709551615 }
    (∃ handles, Evolves ({} : MemoryStore) ({ contents } :: handles) {}) ∧
      TaskStore.insert ⟨[], 1⟩ (Backend.draft 0 "c") ⟨contents, .working⟩ {} =
        (insertion, { contents := after }, ({} : MemoryStore)) ∧
      ¬contents.Adds ⟨[], 1⟩ (Backend.draft 0 "c") insertion after := by
  intro contents insertion after
  have begun : Evolves ({} : MemoryStore) [{ contents := {} }] {} := .begin .start rfl
  have first := evolves_inserted begun List.mem_cons_self ⟨[], 1⟩
    (Backend.draft 18446744073709551614 "a")
  have second := evolves_inserted first List.mem_cons_self ⟨[], 1⟩ (Backend.draft 0 "b")
  refine ⟨⟨_, second⟩, ?_, fun adds => ?_⟩
  · simp only [contents, insertion, after]
    rfl
  · obtain ⟨_, _, _, unused, _⟩ := adds
    exact unused (Backend.draft 18446744073709551615 "b") (by decide) rfl

end MemoryStore
end CodeAudit
