import CodeAudit.Task

/-! Groups of tasks that must run one after another. A task without a group id is a group of its
own. -/
namespace CodeAudit

structure TaskGroup where
  groupId : Option Text := none
  tasks : List Task := []
deriving DecidableEq, Repr

namespace TaskGroup

/-- Adds a task to the group with its id, or at the end as a new group. -/
def place (groups : List TaskGroup) (task : Task) : List TaskGroup :=
  if task.groupId.isSome ∧ groups.any (fun g => g.groupId = task.groupId) then
    groups.map (fun g => if g.groupId = task.groupId then { g with tasks := g.tasks ++ [task] }
      else g)
  else groups ++ [{ groupId := task.groupId, tasks := [task] }]

/-- Groups stand in the order of their first tasks, and tasks keep their order inside a group. -/
def partition (tasks : List Task) : List TaskGroup := tasks.foldl place []

end TaskGroup
end CodeAudit
