import CodeAudit.Text

/-!
A folder with what lies in it and below. A path is names with slashes between them, and it can be
read in two ways: `follow?` goes from name to name through what is there, and `settle?` lets `..`
take back the name before it, there or not. Of what lies outside the folder only the folders above
it are known, and the one at the top.
-/
namespace CodeAudit

/-- A place: the names on the way to it, none for the folder itself. The way to a place outside
leads upwards first, or starts with an empty name at the top. -/
abbrev Location := List Text

/-- Files by their places. A folder below is there if it holds a file or is listed in `folders`. -/
structure Folder (α : Type) where
  files : List (Location × α) := []
  folders : List Location := []
deriving DecidableEq, Repr

namespace Location

def upName : Text := utf8 ".."

/-- The top of all folders. -/
def top : Location := [[]]

/-- Where the way along a path starts, and the names on it. -/
def startOf (path : Text) : Location × List Text :=
  match path with
  | 47 :: rest => (top, rest.splitOn 47)
  | path => ([], path.splitOn 47)

/-- The folder around a place; nothing lies around the top. -/
def up (location : Location) : Location :=
  if location == top then top
  else if location.all (· == upName) then location ++ [upName]
  else location.dropLast

/-- The folder itself, one above it or the top. -/
def isAround (location : Location) : Bool := location == top || location.all (· == upName)

/-- The place beside another one whose name has an ending added. -/
def beside (location : Location) (ending : String) : Location :=
  match location.getLast? with
  | none => [utf8 ending]
  | some name => location.dropLast ++ [name ++ utf8 ending]

end Location

namespace Folder
variable {α : Type}

/-- The longest name that a file may have. -/
def maxNameLength : Nat := 255

/-- The longest path that is settled. -/
def maxPathLength : Nat := 510

/-- A name that stays where it is. -/
def isStay (name : Text) : Bool := name.isEmpty || name == utf8 "."

def isUp (name : Text) : Bool := name == Location.upName

def file? (folder : Folder α) (location : Location) : Option α :=
  (folder.files.find? (fun f => f.1 = location)).map Prod.snd

def put (folder : Folder α) (location : Location) (file : α) : Folder α :=
  { folder with files := (location, file) :: folder.files.filter (fun f => f.1 ≠ location) }

def remove (folder : Folder α) (location : Location) : Folder α :=
  { folder with files := folder.files.filter (fun f => f.1 ≠ location) }

def isFolder (folder : Folder α) (location : Location) : Bool :=
  location.isAround || folder.folders.contains location ||
    folder.files.any (fun f => location.isPrefixOf f.1 && f.1 != location)

/-- Goes on from a place, which has to be a folder as long as a name follows, be it an empty one. -/
def followFrom (folder : Folder α) : Location → List Text → Option Location
  | here, [] => some here
  | here, name :: rest =>
      if !folder.isFolder here then none
      else if isStay name then folder.followFrom here rest
      else if isUp name then folder.followFrom here.up rest
      else
        let there := here ++ [name]
        if folder.isFolder there || (folder.file? there).isSome then folder.followFrom there rest
        else none

/-- The place that a path leads to, if something is there. The empty path leads nowhere. -/
def follow? (folder : Folder α) (path : Text) : Option Location :=
  if path.isEmpty then none
  else
    let (start, names) := Location.startOf path
    folder.followFrom start names

/-- The file that a path leads to. -/
def read? (folder : Folder α) (path : Text) : Option α := (folder.follow? path).bind folder.file?

/-- Goes on from a place, there or not, but never below a file. -/
def settleFrom (folder : Folder α) : Location → List Text → Option Location
  | here, [] => some here
  | here, name :: rest =>
      if isStay name then folder.settleFrom here rest
      else if isUp name then folder.settleFrom here.up rest
      else
        let there := here ++ [name]
        if maxNameLength < name.length || maxPathLength < (Text.join [47] there).length ||
            (folder.file? here).isSome then none
        else folder.settleFrom there rest

/-- The place that a path names, whether or not something is there. The top is no such place. -/
def settle? (folder : Folder α) (path : Text) : Option Location :=
  let (start, names) := Location.startOf path
  (folder.settleFrom start names).filter (· != Location.top)

/-- The place where a file can be written under a path: the last name has to be a file's, in a
folder that is there. -/
def place? (folder : Folder α) (path : Text) : Option Location :=
  let (start, names) := Location.startOf path
  match names.getLast? with
  | none => none
  | some name =>
      if isStay name || isUp name || maxNameLength < name.length then none
      else
        match folder.followFrom start names.dropLast with
        | none => none
        | some parent =>
            let there := parent ++ [name]
            if folder.isFolder parent && !folder.isFolder there then some there else none

/-- Writes a file under a path, which ends at its first NUL, if one can be written there. -/
def write (folder : Folder α) (path : Text) (file : α) : Folder α :=
  match folder.place? path.beforeNul with
  | some location => folder.put location file
  | none => folder

/-- A folder with files written under their paths, one after the other. -/
def ofFiles (files : List (Text × α)) : Folder α :=
  files.foldl (fun folder (path, file) => folder.write path file) {}

end Folder
end CodeAudit
