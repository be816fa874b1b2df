import CodeAudit.CallTree

/-! Trees drawn as indented text, one node per line. -/
namespace CodeAudit
namespace CallTree

def Node.label (n : Node) : Text :=
  match n.record with
  | some p =>
      n.name ++ utf8 " (lines " ++ Text.ofNat p.record.startLine.toNat ++ utf8 "-" ++
        Text.ofNat p.record.endLine.toNat ++ utf8 ")"
  | none => n.name ++ utf8 " (unresolved)"

/-- The lines of a node and all below it. `margin` is what stands left of its siblings, and `last`
tells the last of them. -/
def outlineFrom (t : CallTree) (margin : Text) (last : Bool) (i : Nat) : Text :=
  if inside : i < t.nodes.size then
    let node := t.nodes[i]
    let branch := if node.depth = 0 then [] else margin ++ utf8 (if last then "└─ " else "├─ ")
    let inner := if node.depth = 0 then margin else margin ++ utf8 (if last then "   " else "│  ")
    branch ++ node.label ++ [Text.newline] ++
      node.children.zipIdx.flatMap fun (c, k) =>
        if i < c then t.outlineFrom inner (k + 1 == node.children.length) c else []
  else []
termination_by t.nodes.size - i

def outline (t : CallTree) : Text := t.outlineFrom [] true 0

end CallTree
end CodeAudit
