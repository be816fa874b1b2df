import CodeAudit.Store.Relation.Execution

/-! Deeds are run step by step. Tables are plain that hold rows and nothing else to mind: all of
them can be read, no value follows from others, and nothing is set off. What is written there is
what was told, unless it repeats something. -/
namespace CodeAudit

namespace Deed

variable {α β : Type} {work after : Work} {value : α} {signal : Signal}

theorem run_pure (value : α) (work : Work) :
    (pure value : Deed α).run work = (.ok value, work) := rfl

theorem run_get (work : Work) : (get : Deed Work).run work = (.ok work, work) := rfl

theorem run_modify (change : Work → Work) (work : Work) :
    (modify change : Deed Unit).run work = (.ok (), change work) := rfl

theorem run_lift {outcome : Except Signal α} (same : outcome = .ok value) (work : Work) :
    (lift outcome).run work = (.ok value, work) := by
  subst same
  rfl

theorem bind_ok {deed : Deed α} (did : deed.run work = (.ok value, after)) (next : α → Deed β) :
    (deed >>= next).run work = (next value).run after := by
  simp only [ExceptT.run] at did
  simp only [bind, ExceptT.bind, ExceptT.mk, ExceptT.run, StateT.bind, did]
  rfl

theorem bind_error {deed : Deed α} (failed : deed.run work = (.error signal, after))
    (next : α → Deed β) : (deed >>= next).run work = (.error signal, after) := by
  simp only [ExceptT.run] at failed
  simp only [bind, ExceptT.bind, ExceptT.mk, ExceptT.run, StateT.bind, failed]
  rfl

theorem run_demand {legible : Bool} (fine : legible = true) (work : Work) :
    (demand legible).run work = (.ok (), work) := by
  subst fine
  rfl

theorem passing_congr {deed other : Deed Unit} {work after : Work}
    (same : deed.run work = other.run after) :
    (passing deed).run work = (passing other).run after := by
  simp only [ExceptT.run] at same
  simp only [passing, tryCatch, tryCatchThe, MonadExceptOf.tryCatch, ExceptT.tryCatch, ExceptT.mk,
    ExceptT.run, bind, StateT.bind, same]

theorem passing_ok {deed : Deed Unit} (did : deed.run work = (.ok (), after)) :
    (passing deed).run work = (.ok (), after) := by
  simp only [ExceptT.run] at did
  simp only [passing, tryCatch, tryCatchThe, MonadExceptOf.tryCatch, ExceptT.tryCatch, ExceptT.mk,
    ExceptT.run, bind, StateT.bind, did]
  rfl

/-- Only rows that are to be skipped are passed over. -/
theorem passing_error {deed : Deed Unit} (failed : deed.run work = (.error signal, after))
    (kept : ∀ cause, signal ≠ .refused cause .skip) :
    (passing deed).run work = (.error signal, after) := by
  simp only [ExceptT.run] at failed
  simp only [passing, tryCatch, tryCatchThe, MonadExceptOf.tryCatch, ExceptT.tryCatch, ExceptT.mk,
    ExceptT.run, bind, StateT.bind, failed]
  cases signal with
  | fault cause => rfl
  | refused cause resolution =>
    cases resolution with
    | skip => exact absurd rfl (kept cause)
    | _ => rfl

end Deed

theorem Expr.eval_column {relation : Relation} {name : Text} {place : Nat}
    (found : relation.placeOf? name = some place) (encoding : TextEncoding) (purpose : Purpose)
    (row : Row) :
    (Expr.column name).eval (.ofRow encoding purpose relation row) =
      .ok (relation.cell row place) := by
  simp only [eval, column, values, Setting.resolve, Setting.ofRow, List.zipIdx, List.findSome?,
    Setting.meantIn, Setting.boundIn, Focus.withRow, Focus.ofTable, Option.map]
  simp [found, Setting.present, Meaning.value, Binding.value, firstOf, Cell.first, Except.map]

namespace Relation

/-- Nothing stands in the way of a row but what it repeats. -/
structure Plain (relation : Relation) : Prop where
  triggers : relation.triggers = []
  gaps : relation.gaps = []
  isOpen : relation.isClosed = false
  told : relation.isComputed = false
  firm : ∀ column ∈ relation.columns, column.required ≠ some .replace
  checks : relation.checks = []
  lax : relation.strict = false
  key : relation.key = none
  legible : ∀ row ∈ relation.rows, row.unread = []
  indexes : ∀ index ∈ relation.indexes, index.isSound

/-- The row has a value wherever one is needed, and each is as its column prefers it. -/
structure Complete (relation : Relation) (row : Row) : Prop where
  length : row.cells.length = relation.columns.length
  preferred : relation.preferred row = row
  present : ∀ entry ∈ relation.columns.zipIdx,
    entry.1.required.isSome → (relation.cell row entry.2).isNull = false

variable {relation : Relation} {row : Row} {encoding : TextEncoding} {touched : Touched}

/-- What takes each pair back to its second part gives the second list back. -/
theorem map_zip_snd {α β : Type} {l : List α} {others : List β} {f : α × β → β}
    (length : others.length = l.length) (kept : ∀ entry ∈ l.zip others, f entry = entry.2) :
    (l.zip others).map f = others := by
  rw [List.map_congr_left kept]
  exact List.map_snd_zip (Nat.le_of_eq length)

theorem Plain.hides (plain : relation.Plain) (number : Int64) : relation.hides number = false := by
  simp [Relation.hides, plain.gaps]

theorem Plain.triggersFor (plain : relation.Plain) (after : Bool) (event : Event) :
    relation.triggersFor after event = [] := by
  simp [Relation.triggersFor, plain.triggers]

theorem Plain.typed (plain : relation.Plain) (computed : Bool) (row : Row) :
    relation.typed computed row = .ok () := by
  simp [Relation.typed, plain.lax]

theorem Plain.settled (plain : relation.Plain) (complete : relation.Complete row) :
    relation.settled encoding row = .ok row := by
  simp [Relation.settled, plain.told, complete.preferred, pure, Except.pure]

theorem Complete.present_ok (complete : relation.Complete row) (touched : Touched) (isLast : Bool) :
    relation.present none touched isLast row = .ok () := by
  have entries (l : List (Column × Nat)) (f : Column × Nat → Except Signal Unit)
      (fine : ∀ entry ∈ l, f entry = .ok ()) : l.forM f = .ok () := by
    induction l with
    | nil => rfl
    | cons entry rest ih =>
      change (f entry >>= fun _ => rest.forM f) = _
      rw [fine entry List.mem_cons_self]
      exact ih (fun other member => fine other (List.mem_cons_of_mem _ member))
  refine entries _ _ ?_
  rintro ⟨column, place⟩ member
  cases required : column.required with
  | none => simp [lackResolution, required]
  | some declared =>
    have filled := complete.present _ member (by simp [required])
    simp [lackResolution, required, filled]

theorem Plain.filled (plain : relation.Plain) (complete : relation.Complete row) :
    relation.filled none touched row = row := by
  unfold Relation.filled
  rw [map_zip_snd complete.length]
  rintro ⟨column, cell⟩ member
  have firm := plain.firm column (List.of_mem_zip member).1
  have other : lackResolution none column ≠ some .replace := by
    intro replaces
    unfold lackResolution at replaces
    cases required : column.required with
    | none => simp [required] at replaces
    | some declared => cases declared <;> simp_all
  simp [other]

theorem Plain.checked (plain : relation.Plain) (complete : relation.Complete row) :
    relation.checked encoding none touched row = .ok row := by
  simp only [Relation.checked, complete.present_ok, plain.filled complete, checksFor, plain.checks,
    if_true]
  change (relation.present none touched true row >>= fun _ => _) = _
  rw [complete.present_ok]
  rfl

end Relation

namespace Deed
variable {relation : Relation} {work : Work} {row : Row}

def Shows (work : Work) (relation : Relation) : Prop := work.table? relation.name = some relation

theorem run_current (shows : Shows work relation) :
    (current relation).run work = (.ok relation, work) := by
  have found := run_get work
  unfold current
  rw [bind_ok found, shows]
  rfl

theorem forM_ok {α : Type} {l : List α} {f : α → Deed Unit}
    (fine : ∀ a ∈ l, (f a).run work = (.ok (), work)) : (l.forM f).run work = (.ok (), work) := by
  induction l with
  | nil => rfl
  | cons a rest ih =>
    change (f a >>= fun _ => rest.forM f).run work = _
    rw [bind_ok (fine a List.mem_cons_self)]
    exact ih (fun other member => fine other (List.mem_cons_of_mem _ member))

theorem unlist_plain (plain : relation.Plain) (shows : Shows work relation)
    (concerns : Index → Bool) (legible : row.unread = []) :
    (unlist relation concerns row).run work = (.ok (), work) := by
  unfold unlist
  rw [bind_ok (run_current shows), bind_ok (run_get work)]
  simp only [plain.isOpen, legible, List.isEmpty_nil]
  refine forM_ok (fun index member => ?_)
  have sound := plain.indexes index (List.mem_filter.mp member).1
  simp only [Index.isSound, Bool.and_eq_true, Bool.not_eq_true', List.isEmpty_iff] at sound
  obtain ⟨⟨⟨lost, closed⟩, missing⟩, _⟩ := sound
  simp [lost, closed, missing, run_pure]

theorem list_plain (plain : relation.Plain) (shows : Shows work relation)
    (concerns : Index → Bool) :
    (list relation concerns row).run work = (.ok (), work) := by
  have none_refuses (indexes : List Index) (sound : ∀ index ∈ indexes, index.isSound)
      (refuses : Index → Deed Bool)
      (fine : ∀ index, index.isSound → (refuses index).run work = (.ok false, work)) :
      (indexes.findM? refuses).run work = (.ok none, work) := by
    induction indexes with
    | nil => rfl
    | cons index rest ih =>
      change (refuses index >>= _).run work = _
      rw [bind_ok (fine index (sound index List.mem_cons_self))]
      exact ih (fun other member => sound other (List.mem_cons_of_mem _ member))
  unfold list
  rw [bind_ok (run_current shows), bind_ok (run_get work), bind_ok (none_refuses _ ?_ _ ?_)]
  · simp [plain.isOpen, run_pure]
  · intro index member
    exact plain.indexes index (List.mem_filter.mp member).1
  · intro index sound
    simp only [Index.isSound, Bool.and_eq_true, Bool.not_eq_true'] at sound
    simp [sound.1.1.1, sound.1.1.2, run_pure]

/-- Where there are no triggers nothing is set off. -/
theorem run_react (quiet : ∀ found, work.table? relation.name = some found → found.triggers = [])
    (silent : relation.triggers = []) (isAfter : Bool) (event : Event)
    (override : Option Resolution) :
    (react relation isAfter event override).run work = (.ok (), work) := by
  unfold react
  rw [bind_ok (run_get work)]
  cases Catalog.triggerCount { tables := work.tables, views := work.views } with
  | zero => rfl
  | succ fuel =>
    unfold reactWith current
    have none_set : ((work.table? relation.name).getD relation).triggersFor isAfter event = [] := by
      cases found : work.table? relation.name with
      | none => simp [Relation.triggersFor, silent]
      | some table => simp [Relation.triggersFor, quiet table found]
    rw [bind_ok (bind_ok (run_get work) _)]
    rw [none_set]
    rfl

theorem run_announce (plain : relation.Plain) (override : Option Resolution) (event : Row → Event)
    (row : Row) (work : Work) :
    (announce react override relation event row).run work = (.ok (), work) := by
  simp [announce, plain.triggersFor, run_pure]

end Deed
end CodeAudit
