import CodeAudit.Fault
import CodeAudit.Scheduler.TaskGroup

/-! The queue workers take groups from. A closed queue takes no more groups but hands out those it
holds. -/
namespace CodeAudit

structure GroupQueue where
  waiting : List TaskGroup := []
  closed : Bool := false
deriving DecidableEq, Repr

namespace GroupQueue

/-- What a worker meets at the queue. -/
inductive Offer where
  | group (next : TaskGroup) (queue : GroupQueue)
  /-- Empty and closed for good. -/
  | drained
  /-- Empty, but groups may still come: the worker has to wait. -/
  | nothingYet
deriving DecidableEq, Repr

def size (q : GroupQueue) : Nat := q.waiting.length

def enqueue (q : GroupQueue) (group : TaskGroup) : Except Fault GroupQueue :=
  if q.closed then .error .queueClosed else .ok { q with waiting := q.waiting ++ [group] }

def shutDown (q : GroupQueue) : GroupQueue := { q with closed := true }

/-- First in, first out. -/
def dequeue (q : GroupQueue) : Offer :=
  match q.waiting with
  | next :: rest => .group next { q with waiting := rest }
  | [] => if q.closed then .drained else .nothingYet

end GroupQueue
end CodeAudit
