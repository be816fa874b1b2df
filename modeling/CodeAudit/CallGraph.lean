import CodeAudit.Text

/-!
Call graphs over short names. Every function has one entry with its callers and its callees; entries
and name sets are kept in byte order, so a graph does not remember in which order it was built.
-/
namespace CodeAudit

inductive Direction where
  /-- Towards the callers of a function. -/
  | upstream
  /-- Towards the functions it calls. -/
  | downstream
deriving DecidableEq, Repr

def Direction.name : Direction → String
  | upstream => "upstream"
  | downstream => "downstream"

/-- Names in increasing byte order. -/
abbrev NameSet := List Text

/-- Puts a name in its place unless it is there already. -/
def NameSet.insert (name : Text) : NameSet → NameSet
  | [] => [name]
  | n :: rest =>
      if name < n then name :: n :: rest
      else if name = n then n :: rest
      else n :: NameSet.insert name rest

namespace CallGraph

/-- What a graph knows about one function. -/
structure Entry where
  name : Text
  callers : NameSet := []
  callees : NameSet := []
deriving DecidableEq, Repr

def Entry.related (e : Entry) : Direction → NameSet
  | .upstream => e.callers
  | .downstream => e.callees

/-- Puts an empty entry in its place unless the name has one already. -/
def insertEntry (name : Text) : List Entry → List Entry
  | [] => [{ name }]
  | e :: rest =>
      if name < e.name then { name } :: e :: rest
      else if name = e.name then e :: rest
      else e :: insertEntry name rest

/-- Changes the entry of one name. -/
def modifyEntry (name : Text) (change : Entry → Entry) (entries : List Entry) : List Entry :=
  entries.map (fun e => if e.name = name then change e else e)

end CallGraph

structure CallGraph where
  entries : List CallGraph.Entry := []
  edgeCount : Nat := 0
deriving DecidableEq, Repr

namespace CallGraph

def entry? (g : CallGraph) (name : Text) : Option Entry := g.entries.find? (fun e => e.name = name)

def contains (g : CallGraph) (name : Text) : Bool := (g.entry? name).isSome

/-- The names one call away in a direction; none for a name outside the graph. -/
def related (g : CallGraph) (direction : Direction) (name : Text) : NameSet :=
  ((g.entry? name).map (fun e => e.related direction)).getD []

/-- All names of the graph in byte order. -/
def functions (g : CallGraph) : NameSet := g.entries.map Entry.name

def functionCount (g : CallGraph) : Nat := g.entries.length

def addFunction (g : CallGraph) (name : Text) : CallGraph :=
  { g with entries := insertEntry name g.entries }

/-- Adds both ends and the call between them. A function that names itself adds nothing, and a known
call is counted once. -/
def addCall (g : CallGraph) (caller callee : Text) : CallGraph :=
  if caller = callee then g
  else
    let ends := (g.addFunction caller).addFunction callee
    { entries :=
        modifyEntry callee (fun e => { e with callers := e.callers.insert caller })
          (modifyEntry caller (fun e => { e with callees := e.callees.insert callee }) ends.entries)
      edgeCount :=
        if callee ∈ ends.related .downstream caller then g.edgeCount else g.edgeCount + 1 }

end CallGraph
end CodeAudit
