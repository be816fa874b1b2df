import CodeAudit.Store.Address
import CodeAudit.Store.Image
import CodeAudit.Store.Image.Journal
import CodeAudit.Store.Image.WriteAheadLog
import CodeAudit.Store.OpenTable

/-!
Files that hold task tables. Opening one creates what is missing; closing leaves what was committed.
A name with an ending added is the place of a log, a journal or a lock of a file.
-/
namespace CodeAudit

inductive TableFile where
  /-- Written by something else. -/
  | given (bytes : Text)
  /-- The table of tasks and nothing else, or nothing after it was dropped; and whether a
  write-ahead log is kept. -/
  | tasks (table : Option TaskTable) (logged : Bool)
  | database (database : Database) (logged : Bool)
deriving DecidableEq

abbrev Disk := Folder TableFile

namespace TableFile

def isEmpty : TableFile → Bool
  | given bytes => bytes.isEmpty
  | _ => false

/-- The bytes of the file if it was written by something else. -/
def octets? : TableFile → Option Octets
  | given bytes => some (.ofText bytes)
  | _ => none

/-- The file is not empty and does not start with a NUL. -/
def isMarked : TableFile → Bool
  | given bytes => bytes.head?.any (· != 0)
  | _ => true

/-- What is found in a file that was written here. -/
def ownImage : TableFile → Image
  | given _ => {}
  | tasks _ logged => { logged }
  | database contents logged => { content := .ok contents, logged }

end TableFile

namespace Disk

/-- The name of a file with an ending added is too long for another file beside it. -/
def isCrowded (location : Location) (ending : String) : Bool :=
  (location.getLast?.map List.length).any (Folder.maxNameLength - (utf8 ending).length < ·)

/-- The place of the file at an address, which has to be there unless it may be created. A folder
fails to open for writing, and is opened for reading but not read. -/
def locate (disk : Disk) (address : Address) : Except EngineFault Location :=
  match disk.settle? address.path with
  | none => .error .cannotOpen
  | some location =>
      if (address.option? "modeof").any (fun model => (disk.follow? model).isNone) then
        .error .inputOutput
      else if disk.isFolder location then
        .error (if address.access == .read then .inputOutput else .cannotOpen)
      else if !disk.isFolder location.dropLast then .error .cannotOpen
      else if (disk.file? location).isNone && address.access != .create then .error .cannotOpen
      else .ok location

/-- The file beside another one under an ending. -/
def beside? (disk : Disk) (location : Location) (ending : String) : Option TableFile :=
  disk.file? (location.beside ending)

/-- A write-ahead log beside a file. -/
def hasLog (disk : Disk) (location : Location) : Bool :=
  (disk.beside? location "-wal").any (fun log => !log.isEmpty)

/-- A journal beside a file that tells of changes to undo. -/
def hasJournal (disk : Disk) (location : Location) : Bool :=
  (disk.beside? location "-journal").any TableFile.isMarked

/-- The bytes of a file that was written by something else, after what a journal beside it tells was
undone. Where locks are files of their own it is taken for that of a change that goes on. -/
def undone (disk : Disk) (address : Address) (location : Location) (bytes : Octets) : Octets :=
  match (disk.beside? location "-journal").bind TableFile.octets? with
  | some journal =>
      if address.isImmutable || address.marksLock || bytes.isBlank then bytes
      else Journal.undone journal (Image.assumedSize bytes) bytes
  | none => bytes

/-- The bytes of a file with those of a write-ahead log beside it. -/
def logApplied (disk : Disk) (address : Address) (location : Location) (bytes : Octets) :
    Except EngineFault Octets :=
  match (disk.beside? location "-wal").bind TableFile.octets? with
  | some log => if address.isImmutable || bytes.isBlank then .ok bytes
      else WriteAheadLog.applied log bytes
  | none => .ok bytes

/-- What keeps a file from being read at all; it may have no page. -/
def access (disk : Disk) (address : Address) (location : Location) (isBlank : Bool) :
    Except EngineFault Unit :=
  if address.marksLock && isCrowded location ".lock" then .error .inputOutput
  else if address.marksLock && (disk.beside? location ".lock").isSome then .error .locked
  else if address.access == .read && !address.isImmutable && !address.marksLock && !isBlank &&
      disk.hasJournal location then .error .readOnly
  else .ok ()

/-- What is found in the file at a place, and whether a write-ahead log lies beside it. -/
def imageAt (disk : Disk) (address : Address) (location : Location) (file : TableFile) :
    Except EngineFault (Image × Bool) := do
  disk.access address location (file.octets?.any Octets.isBlank)
  let bytes := file.octets?.map (disk.undone address location)
  let hasLog := disk.hasLog location && !bytes.any Octets.isBlank
  if hasLog && !address.readsLogged then .error .cannotOpen
  let bytes ← bytes.mapM (disk.logApplied address location)
  let image := (bytes.map Image.ofOctets).getD file.ownImage
  if image.logged && !address.readsLogged then .error .cannotOpen
  return (image, hasLog)

/-- Connects to the file at a place. It is turned to keep a write-ahead log if that is asked for and
possible, and what is missing of the table of tasks is added. -/
def connectFile (disk : Disk) (address : Address) (location : Location) (log : Bool) :
    Except EngineFault OpenTable := do
  let file := (disk.file? location).getD (.given [])
  let (image, hasLog) ← disk.imageAt address location file
  let contents ← image.content
  let frozen := address.isFrozen || image.frozen
  let permit (spoiled : Bool) : Except EngineFault Unit :=
    if frozen then .error .readOnly
    else if isCrowded location "-journal" then .error .cannotOpen
    else if spoiled then .error .damaged
    else .ok ()
  let turns := log && address.canLog && !image.logged && !hasLog
  if turns then permit false
  let source := some { location, logged := image.logged || turns : TableSource }
  match file with
  | .tasks (some table) _ => return .tasks { contents := some table, frozen, source }
  | .tasks none _ =>
      permit false
      return .tasks { contents := some {}, frozen, source }
  | .database _ _ =>
      let contents ← contents.prepare (permit false)
      return .database { connection := { contents, frozen, source } }
  | .given _ =>
      let contents ← contents.prepare (permit image.spoiled)
      match contents.taskTable? with
      | some table => return .tasks { contents := some table, frozen, source }
      | none => return .database { connection := { contents, frozen, source } }

/-- Connects to the table at an address, creating it if need be and if possible with a write-ahead
log. -/
def connect (disk : Disk) (address : Text) (log : Bool) : Except Fault OpenTable :=
  Except.mapError Fault.engine do
    let address ← Address.ofText address
    if address.isPrivate then
      if address.isFrozen then .error .readOnly else .ok (.tasks { contents := some {} })
    else
      let location ← disk.locate address
      disk.connectFile address location log

/-- What the files hold once a connection is closed; `keep` turns what was committed into a file. -/
def closeConnection {α : Type} (disk : Disk) (connection : Connection α)
    (keep : α → Bool → TableFile) : Disk :=
  match connection.source with
  | none => disk
  | some source =>
      if connection.frozen then disk
      else
        ((disk.remove (source.location.beside "-wal")).remove
          (source.location.beside "-journal")).put
          source.location (keep connection.abandon.contents source.logged)

/-- What the files hold once a connection is closed. -/
def close (disk : Disk) : OpenTable → Disk
  | .tasks store => disk.closeConnection store .tasks
  | .database store => disk.closeConnection store.connection .database

end Disk
end CodeAudit
