import CodeAudit.CallGraph
import CodeAudit.FunctionIndex
import CodeAudit.Log

/-!
Trees of simple call paths. A tree is an arena of nodes with the root in front; no path from the
root repeats a name, while sibling branches may. Branches are unfolded one after the other, each
node's children standing side by side in the arena, and a cap on the number of nodes stops the
unfolding.
-/
namespace CodeAudit

structure CallTree.Node where
  name : Text
  /-- Nothing for a name without a record. -/
  record : Option PlacedRecord
  children : List Nat := []
  /-- Nothing for the root. -/
  parent : Option Nat := none
  depth : Nat := 0
deriving DecidableEq, Repr

structure CallTree where
  direction : Direction
  nodes : Array CallTree.Node
  /-- The unfolding stopped at the cap with names left over. -/
  truncated : Bool := false
deriving DecidableEq, Repr

/-- What trees are built from; a cap of zero is no cap. -/
structure TreeBuilder where
  graph : CallGraph
  index : FunctionIndex
  maxNodes : UInt64 := 0
deriving DecidableEq, Repr

namespace CallTree

def size (t : CallTree) : Nat := t.nodes.size

def node? (t : CallTree) (i : Nat) : Option Node := t.nodes[i]?

/-- The indices from the root down to a node; parents stand before their children. -/
def ancestry (t : CallTree) (i : Nat) : List Nat :=
  match t.nodes[i]? with
  | none => []
  | some node =>
      match node.parent with
      | none => [i]
      | some p => if p < i then t.ancestry p ++ [i] else [i]
termination_by i

/-- The names from the root down to a node. -/
def pathTo (t : CallTree) (i : Nat) : List Text :=
  (t.ancestry i).filterMap (fun j => (t.node? j).map Node.name)

end CallTree

namespace TreeBuilder

/-- Needs a graph and an index. -/
def assemble (graph : Option CallGraph) (index : Option FunctionIndex) (maxNodes : UInt64) :
    Except Fault TreeBuilder := do
  let graph ← Component.treeBuilder.require graph
  let index ← Component.treeBuilder.require index
  return { graph, index, maxNodes }

/-- How many nodes may still be added when so many are wanted. -/
def room (b : TreeBuilder) (t : CallTree) (wanted : Nat) : Nat :=
  if b.maxNodes = 0 then wanted else b.maxNodes.toNat - t.size

/-- Adds children to a node as far as there is room. -/
def addChildren (b : TreeBuilder) (t : CallTree) (parent : Nat) (names : List Text) : CallTree :=
  let fitting := names.take (b.room t names.length)
  let children := List.range' t.size fitting.length
  let depth := ((t.node? parent).map CallTree.Node.depth).getD 0 + 1
  let added := fitting.map fun name =>
    { name, record := b.index.find? name, parent := some parent, depth : CallTree.Node }
  { direction := t.direction
    nodes := t.nodes.modify parent (fun n => { n with children }) ++ added
    truncated := decide (fitting.length < names.length) }

/-- Unfolds siblings that stand side by side from `first` on. `allowed` holds the siblings and every
name that is neither on the way to them nor excluded. -/
def unfoldAll (b : TreeBuilder) (allowed : List Text) (siblings : List Text) (first : Nat)
    (t : CallTree) : CallTree :=
  match siblings with
  | [] => t
  | name :: rest =>
      if t.truncated then t
      else if known : name ∈ allowed then
        let below := allowed.erase name
        let names := (b.graph.related t.direction name).filter (· ∈ below)
        b.unfoldAll allowed rest (first + 1)
          (b.unfoldAll below names t.size (b.addChildren t first names))
      else t
termination_by (allowed.length, siblings.length)
decreasing_by
  · exact Prod.Lex.left _ _ (by
      have := List.length_pos_of_mem known
      rw [List.length_erase_of_mem known]
      omega)
  · exact Prod.Lex.right _ (Nat.lt_succ_self _)

def truncationWarning (b : TreeBuilder) (root : Text) (direction : Direction) : Log.Line :=
  Log.warn "Call tree truncated at node cap"
    [.text "root" root, .text "direction" (utf8 direction.name), .word "max_nodes" b.maxNodes]

/-- The tree below a name, without the excluded names; nothing when the name itself is excluded. -/
def build (b : TreeBuilder) (root : Text) (direction : Direction) (excluded : List Text) :
    Option CallTree × List Log.Line :=
  if root ∈ excluded then (none, [])
  else
    let seed : CallTree := { direction, nodes := #[{ name := root, record := b.index.find? root }] }
    let allowed := root :: b.graph.functions.filter (fun n => n ≠ root ∧ n ∉ excluded)
    let tree := b.unfoldAll allowed [root] 0 seed
    (some tree, if tree.truncated then [b.truncationWarning root direction] else [])

end TreeBuilder
end CodeAudit
