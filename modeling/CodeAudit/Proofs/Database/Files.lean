import CodeAudit.Proofs.Database.Engines
import CodeAudit.Store.Disk

/-! Tables behind addresses. Whatever a file is opened as answers as a table does, and what was
committed is found when the file is opened again. -/
namespace CodeAudit

open TaskStore

namespace OpenTable

/-- The store is the table, or a database that mirrors it. -/
inductive Shows : OpenTable → TableStore → Prop where
  | tasks (table : TableStore) : Shows (.tasks table) table
  | database {store : DatabaseStore} {table : TableStore} (mirrors : store.Mirrors table) :
      Shows (.database store) table

theorem shows_of_eq {mine theirs : TableStore} (same : mine = theirs) :
    Shows (.tasks mine) theirs := by
  subst same
  exact .tasks mine

theorem simulates : Simulates Shows where
  begin := by
    intro store table shows
    cases shows with
    | tasks => exact (Outcomes.refl _).within shows_of_eq
    | database mirrors => exact (DatabaseStore.simulates.begin mirrors).within .database
  commit := by
    intro store table handle shows
    cases shows with
    | tasks => exact .intro _ _ (.tasks _)
    | database mirrors =>
      have committed := DatabaseStore.simulates.commit handle mirrors
      exact .of_parts committed.answer committed.handle (.database committed.left)
  rollback := by
    intro store table handle shows
    cases shows with
    | tasks => exact (Outcomes.refl _).within shows_of_eq
    | database mirrors => exact (DatabaseStore.simulates.rollback handle mirrors).within .database
  release := by
    intro store table handle shows
    cases shows with
    | tasks => exact .tasks _
    | database mirrors => exact .database (DatabaseStore.simulates.release handle mirrors)
  isCommitted := by
    intro store table handle shows
    cases shows with
    | tasks => rfl
    | database mirrors => exact DatabaseStore.simulates.isCommitted handle mirrors
  perform := by
    intro store table fresh step handle shows
    cases shows with
    | tasks => cases step <;> exact .intro _ _ (.tasks _)
    | database mirrors =>
      have done := DatabaseStore.simulates.perform fresh step handle mirrors
      cases step <;> exact .of_parts done.answer done.handle (.database done.left)

def source : OpenTable → Option TableSource
  | tasks store => store.source
  | database store => store.connection.source

end OpenTable

namespace Database
variable {rows : List Row} {largest : Option Int64}

theorem listed_prepared (name : String) (member : name ∈ [projectIndex, groupIndex]) :
    prepared.hasTableLike name = false ∧ prepared.has [.index] name = true := by
  revert name
  decide +kernel

theorem table?_ofRows {name : String} (free : prepared.table? name = none) :
    (ofRows rows largest).table? name = none := by
  unfold table? at free ⊢
  rw [prepared_tables] at free
  simp only [List.find?_eq_none, List.mem_cons, List.not_mem_nil, or_false, forall_eq_or_imp,
    forall_eq] at free
  have tasks : (Relation.ofTasks rows).isNamed name = (Relation.ofTasks []).isNamed name := rfl
  have numbers : (Relation.ofNumber largest).isNamed name =
    (Relation.ofNumber none).isNamed name := rfl
  simp [ofRows, tasks, numbers, free]

theorem withIndex_ofRows {name : String} (member : name ∈ [projectIndex, groupIndex])
    (permit : Except EngineFault Unit) (column : String) :
    (ofRows rows largest).withIndex permit name column = .ok (ofRows rows largest) := by
  have has (kinds : List CatalogKind) :
    (ofRows rows largest).has kinds name = prepared.has kinds name := rfl
  obtain ⟨apart, listed⟩ := listed_prepared name member
  simp only [hasTableLike, Bool.or_eq_false_iff, Option.isSome_eq_false_iff,
    Option.isNone_iff_eq_none] at apart
  have free : (ofRows rows largest).hasTableLike name = false := by
    unfold hasTableLike
    rw [table?_ofRows apart.1, has, apart.2]
    rfl
  unfold withIndex
  rw [tasks_ofRows]
  simp only [free, has, listed]
  rfl

/-- Nothing is missing where tasks have been kept. -/
theorem prepare_ofRows (permit : Except EngineFault Unit) :
    (ofRows rows largest).prepare permit = .ok (ofRows rows largest) := by
  have there : (ofRows rows largest).hasTableLike Relation.tasksName = true := by
    unfold hasTableLike
    change ((ofRows rows largest).tasks.isSome || _) = true
    rw [tasks_ofRows]
    rfl
  have made : (ofRows rows largest).withTasks permit = .ok (ofRows rows largest) := by
    unfold withTasks
    rw [there]
    rfl
  have project : projectIndex ∈ [projectIndex, groupIndex] := by simp
  have group : groupIndex ∈ [projectIndex, groupIndex] := by simp
  unfold prepare
  rw [made]
  change ((ofRows rows largest).withIndex permit projectIndex "project_id" >>= _) = _
  rw [withIndex_ofRows project]
  exact withIndex_ofRows group permit "group_id"

theorem prepare_new {permit : Except EngineFault Unit} {database : Database}
    (made : ({} : Database).prepare permit = .ok database) :
    permit = .ok () ∧ database = prepared := by
  cases permit with
  | error fault => cases made
  | ok _ => exact ⟨rfl, Except.ok.inj (made.symm.trans prepare_empty)⟩

theorem taskTable?_prepared : prepared.taskTable? = some {} := by decide +kernel

end Database

theorem Folder.file?_put {α : Type} (folder : Folder α) (location : Location) (file : α) :
    (folder.put location file).file? location = some file := by
  simp [Folder.file?, Folder.put]

/-- What is done step by step has come through each of its steps. -/
theorem EngineFault.through {α β : Type} {first : Except EngineFault α}
    {next : α → Except EngineFault β} {result : β} (done : (first >>= next) = .ok result) :
    ∃ value, first = .ok value ∧ next value = .ok result := by
  cases first with
  | error fault => cases done
  | ok value => exact ⟨value, rfl, done⟩

namespace Disk

/-- What a file is opened as that some contents are read from. -/
inductive Opens (contents : Database) : TableFile → OpenTable → Prop where
  | tasks (table : Option TaskTable) {logged frozen : Bool} {source : Option TableSource} :
      Opens contents (.tasks table logged)
        (.tasks { contents := some (table.getD {}), frozen, source })
  | database {kept database : Database} {permit : Except EngineFault Unit} {logged frozen : Bool}
      {source : Option TableSource} (prepared : contents.prepare permit = .ok database) :
      Opens contents (.database kept logged)
        (.database { connection := { contents := database, frozen, source } })
  | read {bytes : Text} {database : Database} {table : TaskTable} {permit : Except EngineFault Unit}
      {frozen : Bool} {source : Option TableSource}
      (prepared : contents.prepare permit = .ok database)
      (read : database.taskTable? = some table) (barred : frozen = true → permit ≠ .ok ()) :
      Opens contents (.given bytes) (.tasks { contents := some table, frozen, source })
  | readWhole {bytes : Text} {database : Database} {permit : Except EngineFault Unit}
      {frozen : Bool} {source : Option TableSource}
      (prepared : contents.prepare permit = .ok database) (other : database.taskTable? = none) :
      Opens contents (.given bytes)
        (.database { connection := { contents := database, frozen, source } })

variable {disk : Disk} {address : Address} {location : Location} {log : Bool} {store : OpenTable}
  {file : TableFile}

theorem connectFile_opens (lies : (disk.file? location).getD (.given []) = file)
    (connected : disk.connectFile address location log = .ok store) :
    ∃ image hasLog contents, disk.imageAt address location file = .ok (image, hasLog) ∧
      image.content = .ok contents ∧ Opens contents file store := by
  unfold connectFile at connected
  rw [lies] at connected
  obtain ⟨⟨image, hasLog⟩, found, connected⟩ := EngineFault.through connected
  obtain ⟨contents, content, connected⟩ := EngineFault.through connected
  refine ⟨image, hasLog, contents, found, content, ?_⟩
  dsimp only at connected
  split at connected
  -- A log that is turned on changes nothing of what is found.
  on_goal 1 => obtain ⟨_, _, connected⟩ := EngineFault.through connected
  all_goals
    cases file with
    | given bytes =>
      obtain ⟨database, prepared, connected⟩ := EngineFault.through connected
      cases read : database.taskTable? with
      | some table =>
        rw [read] at connected
        cases connected
        refine .read prepared read (fun frozen => ?_)
        rw [if_pos frozen]
        exact nofun
      | none =>
        rw [read] at connected
        cases connected
        exact .readWhole prepared read
    | tasks table logged =>
      cases table with
      | some table =>
        cases connected
        exact .tasks (some table)
      | none =>
        obtain ⟨_, _, connected⟩ := EngineFault.through connected
        cases connected
        exact .tasks none
    | database kept logged =>
      obtain ⟨database, prepared, connected⟩ := EngineFault.through connected
      cases connected
      exact .database prepared

theorem imageAt_own {image : Image} {hasLog : Bool} (own : file.octets? = none)
    (found : disk.imageAt address location file = .ok (image, hasLog)) :
    image = file.ownImage := by
  unfold imageAt at found
  rw [own] at found
  obtain ⟨_, _, found⟩ := EngineFault.through found
  simp only [Option.map_none, Option.mapM_none, pure_bind, Option.getD_none] at found
  split at found
  · cases found
  · split at found
    · cases found
    · cases found
      rfl

theorem imageAt_blank {image : Image} {hasLog : Bool}
    (found : disk.imageAt address location (.given []) = .ok (image, hasLog)) :
    image.content = .ok {} := by
  have blank : (Octets.ofText []).isBlank = true := rfl
  have undone : disk.undone address location (.ofText []) = .ofText [] := by
    unfold Disk.undone
    split <;> simp [blank]
  have applied : disk.logApplied address location (.ofText []) = .ok (.ofText []) := by
    unfold logApplied
    split <;> simp [blank]
  unfold imageAt at found
  obtain ⟨_, _, found⟩ := EngineFault.through found
  simp only [TableFile.octets?, Option.map_some, Option.mapM_some, undone, applied] at found
  split at found
  · cases found
  · obtain ⟨bytes, same, found⟩ := EngineFault.through found
    cases same
    split at found
    · cases found
    · cases found
      rfl

/-- A file that is not there is opened as a new database. -/
theorem connectFile_new (absent : disk.file? location = none)
    (connected : disk.connectFile address location log = .ok store) :
    ∃ table : TableStore, store.Shows table ∧ DatabaseStore.prepared.Mirrors table := by
  have lies : (disk.file? location).getD (.given []) = .given [] := by rw [absent, Option.getD_none]
  obtain ⟨image, hasLog, contents, found, content, opens⟩ := connectFile_opens lies connected
  obtain rfl : contents = {} := Except.ok.inj (content.symm.trans (imageAt_blank found))
  cases opens with
  | @read _ database table permit frozen source prepared read barred =>
    obtain ⟨permitted, rfl⟩ := Database.prepare_new prepared
    obtain rfl : {} = table := Option.some.inj (Database.taskTable?_prepared.symm.trans read)
    obtain rfl : frozen = false := by
      cases frozen with
      | false => rfl
      | true => exact absurd permitted (barred rfl)
    obtain ⟨unharmed, contents, restore, readOnly, frozen⟩ := DatabaseStore.prepared_mirrors
    exact ⟨_, .tasks _, unharmed, contents, restore, readOnly, frozen⟩
  | readWhole prepared other =>
    obtain ⟨_, rfl⟩ := Database.prepare_new prepared
    rw [Database.taskTable?_prepared] at other
    cases other

/-- A program that is run over a new file is told what it is told over a new database. -/
theorem runProgram_new (absent : disk.file? location = none)
    (connected : disk.connectFile address location log = .ok store) (program : Program) :
    (runProgram (Engine.draw .database) program store).1 = Engine.run .database program := by
  obtain ⟨table, shows, mirrors⟩ := connectFile_new absent connected
  have mine := OpenTable.simulates.runProgram (Engine.draw .database) shows program
  have theirs := DatabaseStore.simulates.runProgram (Engine.draw .database) mirrors program
  exact mine.answer.trans theirs.answer.symm

theorem file?_closed {α : Type} {connection : Connection α} {keep : α → Bool → TableFile}
    {logged : Bool} (source : connection.source = some { location, logged })
    (writable : connection.frozen = false) :
    ((disk.closeConnection connection keep).file? location).getD (.given []) =
      keep connection.abandon.contents logged := by
  simp only [closeConnection, source, writable, Bool.false_eq_true, if_false]
  rw [Folder.file?_put, Option.getD_some]

/-- What was committed is found when the file is opened again. -/
theorem reopened {again : OpenTable} {table : TableStore} {logged : Bool}
    (shows : store.Shows table) (source : store.source = some { location, logged })
    (writable : table.frozen = false)
    (connected : (disk.close store).connectFile address location log = .ok again) :
    ∃ found : TableStore, again.Shows found ∧
      found.contents = some (table.abandon.contents.getD {}) ∧ found.restore = none := by
  cases shows with
  | tasks =>
    obtain ⟨_, _, _, _, _, opens⟩ := connectFile_opens (file?_closed source writable) connected
    cases opens with
    | tasks => exact ⟨_, .tasks _, rfl, rfl⟩
  | database mirrors =>
    have thawed := mirrors.alike.frozen.trans writable
    obtain ⟨image, _, contents, found, content, opens⟩ :=
      connectFile_opens (file?_closed source thawed) connected
    rw [imageAt_own rfl found] at content
    cases content
    cases opens with
    | @database _ _ _ _ frozen _ prepared =>
      have reads := mirrors.alike.abandon.contents
      generalize Connection.abandon _ = kept at reads prepared
      generalize table.abandon.contents = also at reads
      obtain ⟨contents, _, _, _, _⟩ := kept
      dsimp only at reads prepared
      cases reads with
      | @rows rows largest keeps ordered =>
        rw [Database.prepare_ofRows] at prepared
        cases prepared
        let found : TableStore := { contents := some (.ofRows rows largest), frozen }
        exact ⟨found, .database ⟨rfl, .rows keeps ordered, .none, rfl, rfl⟩, rfl, rfl⟩

end Disk
end CodeAudit
