import CodeAudit.CallTree

/-! The records of a tree down to a depth, in the order in which the tree is read. -/
namespace CodeAudit

/-- How many records each depth contributes, in increasing depth; depths without any are left
out. -/
abbrev DepthCounts := List (Nat × Nat)

namespace DepthCounts

def add (depth count : Nat) : DepthCounts → DepthCounts
  | [] => [(depth, count)]
  | (d, n) :: rest =>
      if depth < d then (depth, count) :: (d, n) :: rest
      else if depth = d then (d, n + count) :: rest
      else (d, n) :: add depth count rest

/-- Adds the counts of two records of depths, depth by depth. -/
def merge (into counts : DepthCounts) : DepthCounts :=
  counts.foldl (fun acc (depth, count) => acc.add depth count) into

end DepthCounts

structure Excerpt where
  records : List PlacedRecord := []
  depthCounts : DepthCounts := []
deriving DecidableEq, Repr

namespace CallTree

/-- The resolved nodes at or below a node and within a depth, parents before children; unresolved
ones are passed through. -/
def resolvedFrom (t : CallTree) (maxDepth i : Nat) : List (Nat × PlacedRecord) :=
  if inside : i < t.nodes.size then
    let node := t.nodes[i]
    if maxDepth < node.depth then []
    else
      (node.record.map (fun p => (node.depth, p))).toList ++
        if node.depth < maxDepth then
          node.children.flatMap fun c => if i < c then t.resolvedFrom maxDepth c else []
        else []
  else []
termination_by t.nodes.size - i

def excerpt (t : CallTree) (maxDepth : Nat) : Excerpt :=
  let resolved := t.resolvedFrom maxDepth 0
  { records := resolved.map Prod.snd
    depthCounts := resolved.foldl (fun acc (depth, _) => acc.add depth 1) [] }

end CallTree
end CodeAudit
