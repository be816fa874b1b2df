import CodeAudit.CallTree.Excerpt
import CodeAudit.Task

/-! The code that bears on one or more functions: what calls them, what they call, and they
themselves. -/
namespace CodeAudit

structure BusinessFlow where
  /-- The contents of the records with blank lines between them. -/
  text : Text := []
  /-- Upstream, downstream, then the root, for each root; a record that comes again is left out. -/
  records : List PlacedRecord := []
  upstream : DepthCounts := []
  downstream : DepthCounts := []
deriving DecidableEq, Repr

/-- Builds flows out of trees read down to a depth. -/
structure FlowBuilder where
  trees : TreeBuilder
  index : FunctionIndex
  maxDepth : UInt64
deriving DecidableEq, Repr

namespace FlowBuilder

/-- Needs a tree builder, an index and a depth above zero. -/
def assemble (trees : Option TreeBuilder) (index : Option FunctionIndex) (maxDepth : UInt64) :
    Except Fault FlowBuilder := do
  let trees ← Component.flowBuilder.require trees
  let index ← Component.flowBuilder.require index
  if maxDepth < 1 then throw .zeroFlowDepth
  return { trees, index, maxDepth }

/-- What one root contributes. -/
structure Contribution where
  records : List PlacedRecord := []
  upstream : DepthCounts := []
  downstream : DepthCounts := []
  log : List Log.Line := []
deriving DecidableEq, Repr

/-- The excerpt of a root's tree in one direction. -/
def excerpt (b : FlowBuilder) (root : Text) (direction : Direction) : Excerpt × List Log.Line :=
  match b.trees.build root direction [] with
  | (some tree, log) => (tree.excerpt b.maxDepth.toNat, log)
  | (none, log) => ({}, log)

/-- A root without a record contributes nothing. -/
def contribution (b : FlowBuilder) (root : Text) : Contribution :=
  match b.index.find? root with
  | none => { log := [Log.debug "Business flow root has no record" [.text "function" root]] }
  | some own =>
      let (up, upLog) := b.excerpt root .upstream
      let (down, downLog) := b.excerpt root .downstream
      { records := up.records ++ down.records ++ [own]
        upstream := up.depthCounts
        downstream := down.depthCounts
        log := upLog ++ downLog }

/-- Two records with the same qualified name and content count as one. -/
def sameSource (p q : PlacedRecord) : Bool :=
  p.record.name == q.record.name && p.record.content == q.record.content

/-- Keeps the first of each source. -/
def keepFirst (records : List PlacedRecord) : List PlacedRecord :=
  records.foldl (fun kept p => if kept.any (sameSource p) then kept else kept ++ [p]) []

/-- A blank line goes before a content unless the text is still empty. -/
def joinContents (records : List PlacedRecord) : Text :=
  records.foldl
    (fun text p =>
      if text.isEmpty then p.record.content else text ++ utf8 "\n\n" ++ p.record.content) []

def build (b : FlowBuilder) (roots : List Text) : BusinessFlow × List Log.Line :=
  let parts := roots.map b.contribution
  let records := keepFirst (parts.flatMap Contribution.records)
  ({ text := joinContents records
     records
     upstream := parts.foldl (fun acc p => acc.merge p.upstream) []
     downstream := parts.foldl (fun acc p => acc.merge p.downstream) [] },
   parts.flatMap Contribution.log ++
     [Log.debug "Business flow extracted"
       [.nat "roots" roots.length, .nat "functions" records.length, .word "max_depth" b.maxDepth]])

/-- Gives a task the flow of its function. A task whose function is unknown stays as it is. -/
def attach (b : FlowBuilder) (task : Task) : Task × BusinessFlow × List Log.Line :=
  let (flow, log) := b.build [shortName task.name]
  if flow.records.isEmpty then (task, flow, log)
  else ({ task with flowCode := flow.text, flowScan := true }, flow, log)

end FlowBuilder
end CodeAudit
