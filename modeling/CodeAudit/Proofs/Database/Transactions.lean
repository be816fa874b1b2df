import CodeAudit.Proofs.Database.Change
import CodeAudit.Proofs.Store.Simulation

/-! A database that mirrors a table goes on to do so, whatever is asked of the two. -/
namespace CodeAudit

open TaskStore

namespace Connection
variable {α β : Type} {like : α → β → Prop} {mine : Connection α} {theirs : Connection β}

theorem Alike.begin (alike : Alike like mine theirs) :
    Outcomes (Alike like) (Connection.begin mine) (Connection.begin theirs) := by
  obtain ⟨contents, restore, readOnly, frozen⟩ := alike
  unfold Connection.begin open?
  rw [readOnly, frozen]
  by_cases barred : true ∧ theirs.readOnly ∧ ¬theirs.frozen
  · rw [if_pos barred, if_pos barred]
    exact .refused _
  · rw [if_neg barred, if_neg barred]
    generalize mine.restore = own at restore
    generalize theirs.restore = other at restore
    cases restore with
    | none => exact .done _ ⟨contents, .some contents, rfl, rfl⟩
    | some => exact .refused _

theorem Alike.commit (alike : Alike like mine theirs) (handle : Handle) :
    Outcomes (Alike like) (Connection.commit handle mine) (Connection.commit handle theirs) := by
  obtain ⟨contents, restore, readOnly, frozen⟩ := alike
  unfold Connection.commit commit?
  cases handle.stage with
  | working =>
    generalize mine.restore = own at restore
    generalize theirs.restore = other at restore
    cases restore with
    | none => exact .refused _
    | some => exact .done _ ⟨contents, .none, readOnly, frozen⟩
  | committed => exact .refused _
  | rolledBack => exact .refused _

theorem Alike.rollback (alike : Alike like mine theirs) (handle : Handle) :
    Outcomes (Alike like) (Connection.rollback handle mine)
      (Connection.rollback handle theirs) := by
  unfold Connection.rollback
  cases handle.stage with
  | working =>
    obtain ⟨contents, restore, readOnly, frozen⟩ := alike
    unfold rollback?
    generalize mine.restore = own at restore
    generalize theirs.restore = other at restore
    cases restore with
    | none => exact .refused _
    | some before => exact .done _ ⟨before, .none, readOnly, frozen⟩
  | committed => exact .done handle alike
  | rolledBack => exact .done handle alike

theorem Alike.release (alike : Alike like mine theirs) (handle : Handle) :
    Alike like (Connection.release handle mine).1 (Connection.release handle theirs).1 := by
  unfold Connection.release
  cases handle.stage with
  | working =>
    obtain ⟨contents, restore, readOnly, frozen⟩ := id alike
    unfold rollback?
    generalize mine.restore = own at restore
    generalize theirs.restore = other at restore
    cases restore with
    | none => exact alike
    | some before => exact ⟨before, .none, readOnly, frozen⟩
  | committed => exact alike
  | rolledBack => exact alike

end Connection

namespace DatabaseStore
open Connection (Handle)

variable {store : DatabaseStore} {table : TableStore}

theorem Mirrors.reconnected (mirrors : store.Mirrors table) {own : Connection Database}
    {other : TableStore} (alike : Connection.Alike Database.Reads own other) :
    (store.reconnected own).Mirrors other := by
  refine ⟨?_, alike⟩
  change (store.harmed && own.restore.isSome) = false
  rw [mirrors.unharmed, Bool.false_and]

theorem Mirrors.stays (mirrors : store.Mirrors table) {after : DatabaseStore} {left : TableStore}
    (mine : after = store) (theirs : left = table) : after.Mirrors left := by
  subst mine theirs
  exact mirrors

theorem Mirrors.through (mirrors : store.Mirrors table)
    {step : Connection Database → Except Fault (Handle × Connection Database)}
    {also : Except Fault (Handle × TableStore)}
    (same : Outcomes (Connection.Alike Database.Reads) (step store.connection) also) :
    Outcomes Mirrors (store.through step) also := by
  unfold DatabaseStore.through
  generalize step store.connection = own at same
  cases same with
  | done handle alike => exact .done handle (mirrors.reconnected alike)
  | refused fault => exact .refused fault

theorem Mirrors.perform (mirrors : store.Mirrors table) (fresh : Fresh) (step : DataStep)
    (handle : Handle) :
    Continues Mirrors (TaskStore.perform fresh step handle store)
      (TaskStore.perform fresh step handle table) := by
  cases step with
  | insert task =>
    have inserted := mirrors.insert fresh task
    exact .of_parts (congrArg DataStep.Answer.inserted inserted.answer) rfl inserted.left
  | find id =>
    have found := find?_mirrors mirrors id
    have told := congrArg (fun reply => DataStep.Answer.found reply.value) found
    exact .of_parts told rfl (mirrors.stays (congrArg Reply.state found) rfl)
  | ofProject project =>
    have listed := ofProject_mirrors mirrors project
    have told := congrArg (fun reply => DataStep.Answer.listed reply.value) listed
    have mine := congrArg Reply.state listed
    have theirs := @TableStore.listing_state table (fun table => table.ofProject project)
    exact .of_parts told rfl (mirrors.stays mine theirs)
  | doneInGroup group =>
    have listed := doneInGroup_mirrors mirrors group
    have told := congrArg (fun reply => DataStep.Answer.listed reply.value) listed
    have mine := congrArg Reply.state listed
    have theirs := @TableStore.listing_state table (fun table => table.doneInGroup group)
    exact .of_parts told rfl (mirrors.stays mine theirs)
  | write column id value =>
    have wrote := mirrors.write column id value
    exact .of_parts (congrArg DataStep.Answer.wrote wrote.answer) rfl wrote.left

/-- A database answers whatever the table does. -/
theorem simulates : Simulates Mirrors where
  begin := by
    intro store table mirrors
    have open? : DatabaseStore.begin store = store.through Connection.begin := by
      unfold DatabaseStore.begin
      rw [mirrors.unharmed, Bool.false_and, if_neg Bool.false_ne_true]
    change Outcomes Mirrors (DatabaseStore.begin store) _
    rw [open?]
    exact mirrors.through mirrors.alike.begin
  commit := by
    intro store table handle mirrors
    have sound : DatabaseStore.commit handle store =
        .ofOutcome (handle, store) (store.through (Connection.commit handle)) := by
      unfold DatabaseStore.commit
      rw [mirrors.unharmed, Bool.false_and, if_neg Bool.false_ne_true]
    have same := mirrors.through (mirrors.alike.commit handle)
    intro own other
    have mine : own = DatabaseStore.commit handle store := rfl
    have theirs : other = .ofOutcome (handle, table) (Connection.commit handle table) := rfl
    rw [mine, theirs, sound]
    generalize store.through (Connection.commit handle) = done at same
    generalize Connection.commit handle table = also at same
    cases same with
    | done later mirrors => exact .intro _ later mirrors
    | refused fault => exact .intro _ handle mirrors
  rollback := by
    intro store table handle mirrors
    exact mirrors.through (mirrors.alike.rollback handle)
  release := by
    intro store table handle mirrors
    exact mirrors.reconnected (mirrors.alike.release handle)
  isCommitted := by
    intro store table handle mirrors
    rfl
  perform := by
    intro store table fresh step handle mirrors
    exact mirrors.perform fresh step handle

end DatabaseStore
end CodeAudit
