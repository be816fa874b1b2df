import CodeAudit.Proofs.Database.Plain

/-! Rows that are written to plain tables. Looking for repetitions changes nothing, so a row is
either refused by what it repeats first, or written as it is. -/
namespace CodeAudit.Deed

variable {relation : Relation} {work after : Work} {row other : Row} {kept : Option Int64}
  {rule : Option UniqueRule} {touched : Touched}

theorem run_obstacle_number (plain : relation.Plain) (shows : Shows work relation) (row : Row) :
    (obstacle? relation none row none).run work = (.ok (relation.find? row.number), work) := by
  unfold obstacle?
  rw [bind_ok (run_current shows)]
  simp [plain.hides, run_pure]

theorem run_obstacle_own (shows : Shows work relation) (row : Row) :
    (obstacle? relation (some row.number) row none).run work = (.ok none, work) := by
  unfold obstacle?
  rw [bind_ok (run_current shows)]
  simp [run_pure]

theorem run_obstacle_rule {rule : UniqueRule} {found : Option Row} (shows : Shows work relation)
    (told : relation.clashing? work.encoding rule kept row = .ok found) :
    (obstacle? relation kept row (some rule)).run work = (.ok found, work) := by
  unfold obstacle?
  rw [bind_ok (run_current shows)]
  change ((get : Deed Work) >>= _).run work = _
  rw [bind_ok (run_get work), run_lift told]

theorem run_clear_free (free : (obstacle? relation kept row rule).run work = (.ok none, work)) :
    (clear relation none (fun _ => none) row kept rule).run work = (.ok (), work) := by
  unfold clear
  rw [bind_ok free]
  rfl

theorem run_clear_refused
    (held : (obstacle? relation kept row rule).run work = (.ok (some other), work))
    (aborts : (rule.map UniqueRule.resolves).getD
      (relation.numberResolution.getD .abort) = .abort) :
    (clear relation none (fun _ => none) row kept rule).run work =
      (.error (.refused ((rule.map relation.repeats).getD relation.repeatsNumber) .abort),
        work) := by
  unfold clear
  rw [bind_ok held]
  simp only [aborts, Option.getD_none]
  rfl

/-- The rules that a change may break. -/
def concerned (relation : Relation) (touched : Touched) (kept : Option Int64) (row : Row) :
    List (Option UniqueRule) :=
  (relation.uniqueness none []).filter (fun rule =>
    rule.all (fun rule => kept.any (fun number => number ≠ row.number) ||
      touched.meets rule.toIndex.mentions))

/-- Refuses a row that repeats another one where a change may have brought that about. -/
def clearAll (relation : Relation) (touched : Touched) (kept : Option Int64) (row : Row) :
    Deed Unit :=
  (concerned relation touched kept row).forM (clear relation none (fun _ => none) row kept)

/-- The number of a row is looked at before the rules, which is all the same here. -/
theorem run_clearAll (plain : relation.Plain) (next : Deed Row) :
    (do
      ((concerned relation touched kept row).takeWhile Option.isNone).forM
        (clear relation none (fun _ => none) row kept)
      lift (relation.typed true row)
      ((concerned relation touched kept row).dropWhile Option.isNone).forM
        (clear relation none (fun _ => none) row kept)
      next : Deed Row).run work = (clearAll relation touched kept row >>= fun _ => next).run
        work := by
  have typed : lift (relation.typed true row) = pure () := by
    rw [plain.typed]
    rfl
  let rules := concerned relation touched kept row
  let looks := clear relation none (fun _ => none) row kept
  have parts : clearAll relation touched kept row =
      (rules.takeWhile Option.isNone).forM looks >>= fun _ =>
        (rules.dropWhile Option.isNone).forM looks := by
    calc clearAll relation touched kept row
      _ = (rules.takeWhile Option.isNone ++ rules.dropWhile Option.isNone).forM looks := by
        rw [List.takeWhile_append_dropWhile]
        rfl
      _ = _ := List.forM_append
  rw [typed, parts, bind_assoc]
  simp only [pure_bind, rules, looks]

theorem write_cleared (plain : relation.Plain) (shows : Shows work relation)
    (complete : relation.Complete row)
    (cleared : (clearAll relation touched kept row).run work = (.ok (), work)) :
    (write relation none [] (fun _ => none) touched kept row).run work =
      (.ok row, { work.withTable (((kept.map relation.without).getD relation).withRow row) with
        changes := work.changes + 1 }) := by
  have unlisted : ((kept.bind relation.find?).forM (unlist relation (fun index =>
      kept.any (fun number => number ≠ row.number) || touched.meets index.mentions))).run work =
        (.ok (), work) := by
    cases found : kept.bind relation.find? with
    | none => rfl
    | some old =>
      obtain ⟨number, _, found⟩ := Option.bind_eq_some_iff.mp found
      exact unlist_plain plain shows _ (plain.legible old (List.mem_of_find?_eq_some found))
  unfold write
  rw [bind_ok (run_get work), bind_ok (run_lift (plain.settled complete) work),
    bind_ok (run_lift (plain.checked complete) work)]
  refine (run_clearAll plain _).trans ?_
  rw [bind_ok cleared,
    bind_ok (run_current shows), bind_ok unlisted, bind_ok (list_plain plain shows _),
    bind_ok (run_current shows), bind_ok (run_modify _ work)]
  rfl

theorem write_stopped (plain : relation.Plain) (complete : relation.Complete row) {signal : Signal}
    (stopped : (clearAll relation touched kept row).run work = (.error signal, after)) :
    (write relation none [] (fun _ => none) touched kept row).run work =
      (.error signal, after) := by
  unfold write
  rw [bind_ok (run_get work), bind_ok (run_lift (plain.settled complete) work),
    bind_ok (run_lift (plain.checked complete) work)]
  refine (run_clearAll plain _).trans ?_
  rw [bind_error stopped]

/-! ### Adding and changing rows -/

variable {number : Int64}

theorem run_numberFor (plain : relation.Plain) {told : Option Int64}
    (numbered : told.or (relation.nextNumber? (work.sequence relation)) = some number) :
    (numberFor relation told).run work = (.ok number, work) := by
  cases told with
  | some told =>
    obtain rfl := Option.some.inj numbered
    rfl
  | none =>
    have seen : (!relation.hidesLast) = true := by simp [Relation.hidesLast, plain.gaps]
    rw [Option.none_or] at numbered
    unfold numberFor
    rw [bind_ok (run_demand seen work), bind_ok (run_get work), numbered]
    rfl

theorem run_numberFor_full (plain : relation.Plain)
    (full : relation.nextNumber? (work.sequence relation) = none) :
    (numberFor relation none).run work = (.error (.fault .full), work) := by
  have seen : (!relation.hidesLast) = true := by simp [Relation.hidesLast, plain.gaps]
  unfold numberFor
  rw [bind_ok (run_demand seen work), bind_ok (run_get work), full]
  rfl

variable {values : List (Text × Cell)} {cells : List Cell} {cell : Cell} {told : Option Int64}

/-- What comes before a row gets its number. -/
theorem run_insertRow (plain : relation.Plain) (shows : Shows work relation)
    (ends : work.mayLack relation = false) (given : valuesFor relation values = (cells, cell))
    (meant : numberOf cell = pure told) :
    (insertRow react none relation [] [] values).run work =
      (passing (do
        let number ← numberFor relation told
        modify (·.count relation number)
        let row ← write relation none [] (fun _ => none) none none { number, cells }
        remember relation number
        react relation true (.insertion row) none)).run work := by
  have legible : (!(relation.counts && work.mayLack relation)) = true := by
    rw [ends, Bool.and_false, Bool.not_false]
  refine passing_congr ?_
  rw [bind_ok (run_get work), bind_ok (run_demand legible work), given]
  dsimp only
  rw [meant, bind_ok (run_pure told work), bind_ok (run_announce plain none .insertion _ work),
    bind_ok (run_current shows)]
  rfl

theorem insertRow_full (plain : relation.Plain) (shows : Shows work relation)
    (ends : work.mayLack relation = false) (given : valuesFor relation values = (cells, cell))
    (meant : numberOf cell = pure none)
    (full : relation.nextNumber? (work.sequence relation) = none) :
    (insertRow react none relation [] [] values).run work = (.error (.fault .full), work) := by
  rw [run_insertRow plain shows ends given meant]
  exact passing_error (bind_error (run_numberFor_full plain full) _) (fun _ => nofun)

theorem insertRow_refused {cause : Violation} (plain : relation.Plain) (shows : Shows work relation)
    (ends : work.mayLack relation = false) (given : valuesFor relation values = (cells, cell))
    (meant : numberOf cell = pure told)
    (numbered : told.or (relation.nextNumber? (work.sequence relation)) = some number)
    (refused : (write relation none [] (fun _ => none) none none { number, cells }).run
      (work.count relation number) = (.error (.refused cause .abort), after)) :
    (insertRow react none relation [] [] values).run work =
      (.error (.refused cause .abort), after) := by
  rw [run_insertRow plain shows ends given meant]
  refine passing_error ?_ (fun _ => nofun)
  rw [bind_ok (run_numberFor plain numbered), bind_ok (run_modify _ work), bind_error refused]

theorem insertRow_written (plain : relation.Plain) (shows : Shows work relation)
    (ends : work.mayLack relation = false) (given : valuesFor relation values = (cells, cell))
    (meant : numberOf cell = pure told)
    (numbered : told.or (relation.nextNumber? (work.sequence relation)) = some number)
    (wrote : (write relation none [] (fun _ => none) none none { number, cells }).run
      (work.count relation number) = (.ok row, after))
    (quiet : ∀ found, after.table? relation.name = some found → found.triggers = []) :
    (insertRow react none relation [] [] values).run work =
      (.ok (), { after with lastNumber := number }) := by
  have remembered : (remember relation number).run after =
      (.ok (), { after with lastNumber := number }) := by
    unfold remember
    rw [run_modify, plain.key]
    rfl
  rw [run_insertRow plain shows ends given meant]
  refine passing_ok ?_
  rw [bind_ok (run_numberFor plain numbered), bind_ok (run_modify _ work), bind_ok wrote,
    bind_ok remembered]
  have still : ∀ found, Work.table? { after with lastNumber := number } relation.name = some found →
    found.triggers = [] := quiet
  exact run_react still plain.triggers true _ none

theorem run_numberAfter {told : List (Text × Cell)}
    (stays : ∀ value ∈ told, relation.namesNumber value.1 = false) (number : Int64) (work : Work) :
    (numberAfter relation told number).run work = (.ok number, work) := by
  unfold numberAfter
  rw [List.find?_eq_none.mpr]
  · rfl
  · rintro ⟨name, cell⟩ member
    simp [stays _ member]

variable {names : List Text} {assign : Row → Deed (List (Text × Cell))} {old : Row}
  {changes : List (Text × Cell)}

theorem changeRow_written (plain : relation.Plain) (shows : Shows work relation)
    (found : relation.find? number = some old)
    (assigned : (assign old).run work = (.ok changes, work))
    (stays : ∀ value ∈ changes, relation.namesNumber value.1 = false)
    (wrote : (write relation none [] (fun _ => none) (some (relation.changing names)) (some number)
      { number, cells := cellsWith relation changes old }).run work = (.ok row, after))
    (quiet : ∀ found, after.table? relation.name = some found → found.triggers = []) :
    (changeRow react none relation names assign number).run work = (.ok (), after) := by
  have reached : (!relation.hides number) = true := by rw [plain.hides, Bool.not_false]
  have legible : old.unread.isEmpty = true := by
    rw [plain.legible old (List.mem_of_find?_eq_some found)]
    rfl
  unfold changeRow
  rw [bind_ok (run_current shows), bind_ok (run_demand reached work), found]
  dsimp only
  rw [bind_ok (run_demand legible work), bind_ok assigned]
  refine passing_ok ?_
  rw [bind_ok (run_numberAfter stays number work), bind_ok (run_announce plain none _ _ work)]
  unfold rewrite
  rw [bind_ok (run_current shows), found]
  dsimp only
  rw [bind_ok wrote]
  exact run_react quiet plain.triggers true _ none

end CodeAudit.Deed
