import CodeAudit.Proofs.Store.DataSteps
import CodeAudit.Proofs.Store.Tidy

/-! The steps of transactions, taken in any order by any number of handles. What each step keeps of
a store and of its handles holds of all that can be made of a store; so do the order and the texts
of the rows. -/
namespace CodeAudit

open TaskStore

namespace TaskStore
variable {σ τ : Type} [TaskStore σ τ]

/-- A store and handles on it after some steps. Handles are values: what one has become is there
beside it. -/
inductive Evolves (start : σ) : List τ → σ → Prop where
  | start : Evolves start [] start
  | begin : Evolves start handles store → begin store = .ok (handle, after) →
      Evolves start (handle :: handles) after
  | insert : Evolves start handles store → handle ∈ handles →
      insert fresh task handle store = (insertion, later, after) →
        Evolves start (later :: handles) after
  | write : Evolves start handles store → handle ∈ handles →
      write column task value handle store = (status, later, after) →
        Evolves start (later :: handles) after
  | commit : Evolves start handles store → handle ∈ handles →
      (commit handle store).state = (later, after) →
      Evolves start (later :: handles) after
  | rollback : Evolves start handles store → handle ∈ handles →
      rollback handle store = .ok (later, after) →
      Evolves start (later :: handles) after
  | release : Evolves start handles store → handle ∈ handles →
      Evolves start handles (release handle store).1
  | read : Evolves start handles store → handle ∈ handles →
      after ∈ [(find? task handle store).state, (ofProject text handle store).state,
        (doneInGroup text handle store).state] → Evolves start handles after

theorem Evolves.inserted {start store : σ} {handles : List τ} {handle : τ}
    (evolves : Evolves start handles store) (member : handle ∈ handles) (fresh : Fresh)
    (task : Task) :
    Evolves start ((TaskStore.insert fresh task handle store).2.1 :: handles)
      (TaskStore.insert fresh task handle store).2.2 :=
  evolves.insert member rfl

/-- To begin and to end transactions keeps a property of the store and one of its handles. -/
structure Settles (P : σ → Prop) (Q : τ → Prop) : Prop where
  begin : ∀ {store handle after}, P store → begin store = .ok (handle, after) → Q handle ∧ P after
  commit : ∀ {store handle}, P store → Q handle → Q (commit handle store).state.1 ∧
    P (commit handle store).state.2
  rollback : ∀ {store handle later after}, P store → Q handle →
    rollback handle store = .ok (later, after) →
    Q later ∧ P after
  release : ∀ {store handle}, P store → Q handle → P (release handle store).1

/-- Every step keeps a property of the store and one of its handles. -/
structure Keeps (P : σ → Prop) (Q : τ → Prop) : Prop extends Settles P Q where
  perform : ∀ {store handle}, P store → Q handle → ∀ fresh step,
    Q (perform fresh step handle store).2.1 ∧ P (perform fresh step handle store).2.2

theorem Evolves.keeps {P : σ → Prop} {Q : τ → Prop} {start store : σ} {handles : List τ}
    (keeps : Keeps P Q) (initial : P start) (evolves : Evolves start handles store) :
    P store ∧ ∀ handle ∈ handles, Q handle := by
  have add {handle : τ} {handles : List τ} {after : σ} (made : Q handle ∧ P after)
      (known : ∀ handle ∈ handles, Q handle) : P after ∧ ∀ other ∈ handle :: handles, Q other :=
    ⟨made.2, List.forall_mem_cons.mpr ⟨made.1, known⟩⟩
  induction evolves with
  | start => exact ⟨initial, by simp⟩
  | begin _ began ih => exact add (keeps.begin ih.1 began) ih.2
  | @insert _ _ _ fresh task _ _ _ _ member inserted ih =>
    have made := keeps.perform ih.1 (ih.2 _ member) fresh (.insert task)
    simp only [TaskStore.perform, inserted] at made
    exact add made ih.2
  | @write _ _ _ column task value _ _ _ _ member wrote ih =>
    have made := keeps.perform ih.1 (ih.2 _ member) ⟨[], 0⟩ (.write column task value)
    simp only [TaskStore.perform, wrote] at made
    exact add made ih.2
  | commit _ member committed ih =>
    have made := keeps.commit ih.1 (ih.2 _ member)
    rw [committed] at made
    exact add made ih.2
  | rollback _ member undone ih => exact add (keeps.rollback ih.1 (ih.2 _ member) undone) ih.2
  | release _ member ih => exact ⟨keeps.release ih.1 (ih.2 _ member), ih.2⟩
  | @read _ _ _ task text _ _ member seen ih =>
    have seeing (step : DataStep) := (keeps.perform ih.1 (ih.2 _ member) ⟨[], 0⟩ step).2
    simp only [List.mem_cons, List.not_mem_nil, or_false] at seen
    rcases seen with rfl | rfl | rfl
    · exact ⟨seeing (.find task), ih.2⟩
    · exact ⟨seeing (.ofProject text), ih.2⟩
    · exact ⟨seeing (.doneInGroup text), ih.2⟩

end TaskStore

namespace MemoryStore
variable {P : Contents → Prop}

/-- In memory a commit leaves its handle without tasks, and nothing else but data steps makes new
contents. -/
theorem settles_contents (empties : ∀ {contents}, P contents → P { contents with tasks := [] }) :
    Settles (fun store : MemoryStore => P store.committed) (fun handle => P handle.contents) where
  begin := by
    intro store handle after kept began
    obtain ⟨rfl, rfl⟩ := Prod.mk.inj (Except.ok.inj began)
    exact ⟨kept, kept⟩
  commit := by
    intro store handle kept known
    rcases stage : handle.stage
    all_goals simp only [TaskStore.commit, MemoryStore.commit, stage]
    · exact ⟨empties known, known⟩
    · exact ⟨known, kept⟩
    · exact ⟨known, kept⟩
  rollback := by
    intro store handle later after kept known undone
    obtain ⟨rfl, rfl⟩ := Prod.mk.inj (Except.ok.inj undone)
    refine ⟨?_, kept⟩
    unfold MemoryStore.rollback
    split <;> exact known
  release kept _ := kept

/-- Only insertions and writes make new contents. -/
theorem apply_keeps {contents : Contents} {fresh : Fresh} {step : DataStep}
    (inserts : ∀ task, step = .insert task → P (contents.insert fresh task).2)
    (writes : ∀ column task value, P (contents.write column task value).2) (known : P contents) :
    P (apply fresh step contents).2 := by
  cases step with
  | insert task => exact inserts task rfl
  | write column task value => exact writes column task value
  | find | ofProject | doneInGroup => exact known

theorem keeps_contents
    (inserts : ∀ {contents}, P contents → ∀ fresh task, P (contents.insert fresh task).2)
    (writes : ∀ {contents}, P contents → ∀ column task value,
      P (contents.write column task value).2)
    (empties : ∀ {contents}, P contents → P { contents with tasks := [] }) :
    Keeps (fun store : MemoryStore => P store.committed) (fun handle => P handle.contents) where
  toSettles := settles_contents empties
  perform := by
    intro store handle kept known fresh step
    rw [perform_eq]
    exact ⟨apply_keeps (fun task _ => inserts known fresh task) (writes known) known, kept⟩

theorem keeps_tidy :
    Keeps (fun store : MemoryStore => Tidy store.committed.tasks)
      (fun handle => Tidy handle.contents.tasks) :=
  keeps_contents (P := fun contents => Tidy contents.tasks) insert_tidy write_tidy
    (fun _ => List.Pairwise.nil)

end MemoryStore

namespace TableStore
variable {store after : TableStore} {P : TableStore → Prop}

/-- It holds of the connection without its transaction, if that were committed and if it were
dropped. -/
def Holds (P : TableStore → Prop) (store : TableStore) : Prop :=
  P { store with restore := none } ∧ P store.abandon

theorem holds_free (free : store.restore = none) : Holds P store ↔ P store := by
  have same : { store with restore := none } = store := by rw [← free]
  rw [Holds, same, Connection.abandon, free]
  exact and_self_iff

theorem holds_within {before : Option TaskTable} (free : store.restore = none) :
    Holds P (within before store) ↔ P store ∧ P { store with contents := before } := by
  have same : { within before store with restore := none } = store := by
    simp only [within, ← free]
  have dropped : (within before store).abandon = { store with contents := before } := by
    simp only [Connection.abandon, within, ← free]
  rw [Holds, same, dropped]

theorem Holds.committed (holds : Holds P store) (done : store.commit? = .ok after) :
    Holds P after := by
  unfold Connection.commit? at done
  split at done
  · cases done
  · obtain rfl := Except.ok.inj done
    exact (holds_free rfl).mpr holds.1

theorem Holds.rolledBack (holds : Holds P store) (undone : store.rollback? = .ok after) :
    Holds P after := by
  have dropped := holds.2
  unfold Connection.rollback? at undone
  unfold Connection.abandon at dropped
  split at undone
  · cases undone
  next contents restore =>
    obtain rfl := Except.ok.inj undone
    rw [restore] at dropped
    exact (holds_free rfl).mpr dropped

/-- What data steps keep where no transaction is open, everything keeps. -/
theorem keeps_holds (applies : ∀ {free : TableStore}, P free → free.restore = none → ∀ fresh step,
    P (apply fresh step free).2) : Keeps (Holds P) (fun _ : Connection.Handle => True) where
  begin := by
    intro store handle after holds began
    obtain ⟨free, _, rfl⟩ := begin_opens began
    have known := (holds_free free).mp holds
    rw [opened, mapRows_self]
    exact ⟨trivial, (holds_within free).mpr ⟨known, known⟩⟩
  perform := by
    intro store handle holds _ fresh step
    rw [perform_eq]
    refine ⟨trivial, ?_⟩
    rcases pending : store.restore with _ | before
    · have known := applies ((holds_free pending).mp holds) pending fresh step
      refine (holds_free ?_).mpr known
      rw [apply_frame fresh step pending]
      exact pending
    · have free : { store with restore := none }.restore = none := rfl
      rw [eq_within pending] at holds ⊢
      obtain ⟨here, back⟩ := (holds_within free).mp holds
      have known := applies here free fresh step
      have frame := apply_frame fresh step free
      obtain ⟨_, kept | ⟨_, lost⟩⟩ := apply_within before fresh step free
      · rw [kept, holds_within (by rw [frame])]
        refine ⟨known, ?_⟩
        rw [frame]
        exact back
      · rw [lost]
        exact (holds_free rfl).mpr back
  commit := by
    intro store handle holds _
    refine ⟨trivial, ?_⟩
    simp only [TaskStore.commit, Connection.commit]
    split
    · rcases done : store.commit? with fault | after
      · exact holds
      · exact holds.committed done
    · exact holds
  rollback := by
    intro store handle later after holds _ undone
    refine ⟨trivial, ?_⟩
    simp only [TaskStore.rollback, Connection.rollback] at undone
    split at undone
    · rcases done : store.rollback? with fault | outcome
      · rw [done] at undone
        contradiction
      · rw [done] at undone
        obtain ⟨_, rfl⟩ := Prod.mk.inj (Except.ok.inj undone)
        exact holds.rolledBack done
    · obtain ⟨_, rfl⟩ := Prod.mk.inj (Except.ok.inj undone)
      exact holds
  release := by
    intro store handle holds _
    simp only [TaskStore.release, Connection.release]
    split
    · split
      next undone => exact holds.rolledBack undone
      next => exact holds
    · exact holds

/-- The table is tidy, if it is there, and so is the one that a rollback goes back to. -/
def Tidy : TableStore → Prop :=
  Holds (fun store => ∀ table, store.contents = some table → TaskTable.Tidy table.rows)

theorem keeps_tidy : Keeps Tidy (fun _ : Connection.Handle => True) := by
  refine keeps_holds (fun tidy free fresh step => ?_)
  intro table present
  rcases apply_cases fresh step free with same | ⟨old, changed, contents, same,
    ⟨task, inserted⟩ | ⟨_, _, _, wrote⟩⟩
  · exact tidy table (same ▸ present)
  all_goals
    rw [same] at present
    obtain rfl := Option.some.inj present
  · exact TaskTable.insertRow_tidy (tidy old contents) inserted
  · exact TaskTable.write_tidy (tidy old contents) wrote

end TableStore

namespace Backend

def empty : (backend : Backend) → backend.Store
  | memory => ({} : MemoryStore)
  | table => ({ contents := some {} } : TableStore)

/-- Whatever transactions make of an empty store, its rows are tidy. -/
theorem evolves_tidy {backend : Backend} {store : backend.Store} {handles : List backend.Handle}
    (evolves : Evolves backend.empty handles store) : backend.Tidy (rows store) := by
  cases backend with
  | memory =>
    have initial : MemoryStore.Tidy (MemoryStore.committed (empty .memory)).tasks :=
      List.Pairwise.nil
    exact (evolves.keeps MemoryStore.keeps_tidy initial).1
  | table =>
    have initial : TableStore.Tidy (empty .table) := by
      refine (TableStore.holds_free rfl).mpr (fun table same => ?_)
      obtain rfl := Option.some.inj same
      exact ⟨List.Pairwise.nil, by simp⟩
    obtain ⟨contents, _⟩ := (evolves.keeps TableStore.keeps_tidy initial).1
    change TaskTable.Tidy ((store.contents.map TaskTable.rows).getD [])
    cases found : store.contents with
    | none => exact ⟨List.Pairwise.nil, by simp⟩
    | some table => exact contents table found

end Backend
end CodeAudit
