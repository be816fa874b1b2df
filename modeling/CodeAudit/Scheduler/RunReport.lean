import CodeAudit.Task

/-! What a run did: counters, and the last state of every task it met in increasing order of ids. -/
namespace CodeAudit

structure RunReport where
  groups : UInt64 := 0
  executed : UInt64 := 0
  succeeded : UInt64 := 0
  failed : UInt64 := 0
  timedOut : UInt64 := 0
  skippedDone : UInt64 := 0
  skippedFiltered : UInt64 := 0
  states : List (UInt64 × TaskState) := []
deriving DecidableEq, Repr

namespace RunReport

/-- Puts a state in its place; the later of two states of one id stays. -/
def putState (id : UInt64) (state : TaskState) : List (UInt64 × TaskState) →
    List (UInt64 × TaskState)
  | [] => [(id, state)]
  | (i, s) :: rest =>
      if id < i then (id, state) :: (i, s) :: rest
      else if id = i then (id, state) :: rest
      else (i, s) :: putState id state rest

/-- Adds a state unless its id has one. -/
def addState (states : List (UInt64 × TaskState)) (entry : UInt64 × TaskState) :
    List (UInt64 × TaskState) :=
  if states.any (fun s => s.1 = entry.1) then states else putState entry.1 entry.2 states

def record (r : RunReport) (id : UInt64) (state : TaskState) : RunReport :=
  { r with states := putState id state r.states }

/-- Adds up the counters, in 64-bit arithmetic, and keeps the first state of each id. -/
def merge (r other : RunReport) : RunReport :=
  { groups := r.groups + other.groups
    executed := r.executed + other.executed
    succeeded := r.succeeded + other.succeeded
    failed := r.failed + other.failed
    timedOut := r.timedOut + other.timedOut
    skippedDone := r.skippedDone + other.skippedDone
    skippedFiltered := r.skippedFiltered + other.skippedFiltered
    states := other.states.foldl addState r.states }

/-- The report of several workers, taken in order. -/
def mergeAll (reports : List RunReport) : RunReport := reports.foldl merge {}

end RunReport
end CodeAudit
