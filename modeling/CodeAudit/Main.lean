import CodeAudit.CommandLine
import CodeAudit.Document.Reader

/-!
The program: looks up the files a call names, runs it and prints what it leaves. A table lives as
long as the process; the file at its address is only read.
-/
namespace CodeAudit

/-- The bytes of a file, if it can be read. -/
def readBytes? (path : Text) : IO (Option Text) := do
  match String.fromUTF8? ⟨path.toArray⟩ with
  | none => return none
  | some name =>
      try
        return some (← IO.FS.readBinFile name).toList
      catch _ => return none

/-- Whether a folder is there: from anything else a path cannot go on. -/
def isFolder (location : Location) : IO Bool := do
  match String.fromUTF8? ⟨(Text.join [47] location).toArray⟩ with
  | none => return false
  | some name =>
      try
        discard (IO.FS.realPath ("./" ++ name ++ "/."))
        return true
      catch _ => return false

/-- What is at an address of a table, and the folder it lies in. -/
def diskOf (address : Text) : IO Disk := do
  let location := (Address.ofText address).toOption.bind (fun a => ({} : Disk).settle? a.path)
  match location with
  | none => return {}
  | some location =>
      let folders ← [location, location.dropLast].filterM isFolder
      match ← readBytes? (Text.join [47] location) with
      | none => return { folders }
      | some bytes => return { files := [(location, .given bytes)], folders }

/-- The files that a call may touch. -/
def filesOf (args : List Text) : IO CommandLine.Files := do
  let mut found : List (Text × Text) := []
  for path in args do
    if let some bytes ← readBytes? path then
      found := (path, bytes) :: found
  let known := found
  let document (path : Text) : DocumentFile :=
    match known.find? (fun f => f.1 = path) with
    | some (_, bytes) => .ofText bytes
    | none => .missing
  let table : Option Text :=
    match (CommandLine.call? args).map CommandLine.Call.config with
    | some config =>
        match CommandLine.settings { document, disk := {} } config with
        | .ok { database := some (.sqlite path _), .. } => some path
        | _ => none
    | none => none
  match table with
  | none => return { document, disk := {} }
  | some path => return { document, disk := ← diskOf path }

end CodeAudit

def main (args : List String) : IO UInt32 := do
  let args := args.map CodeAudit.utf8
  let outcome := CodeAudit.CommandLine.run (← CodeAudit.filesOf args) args
  (← IO.getStdout).write ⟨outcome.output.toArray⟩
  (← IO.getStderr).write ⟨outcome.errors.toArray⟩
  return outcome.status
