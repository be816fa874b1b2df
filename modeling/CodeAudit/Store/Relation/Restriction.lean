import CodeAudit.Store.Relation.Complaint
import CodeAudit.Store.Relation.Event

/-!
What expressions in a declaration may not hold. They are about one row of one table: what looks
elsewhere is refused, and so is what may have another value the next time where the value is kept.
-/
namespace CodeAudit

namespace Purpose

def prohibits (purpose : Purpose) (what : String) : Option DeclarationFault :=
  some (.prohibited what purpose.title)

end Purpose

namespace Expr

/-- The number of values that stand side by side. -/
def width : Expr → Nat
  | row items => items.toList.length
  | _ => 1

end Expr

/-- What is wrong with an expression of a table by itself, whatever its operands are. -/
def Expr.ownMisfit? (purpose : Purpose) (relation : Relation) : Expr → Option DeclarationFault
  | .name owner spelling quoted =>
      let isOwn := owner.all (fun owner => owner.name.lower == relation.name.lower)
      let isKnown := (relation.placeOf? spelling).isSome ||
        (!purpose.isPlain && relation.namesNumber spelling)
      if isOwn && isKnown then
        if owner.isSome && purpose.isPlain then purpose.prohibits "the \".\" operator" else none
      else if quoted then none
      else some (.engine (.noColumn (writtenName owner spelling)))
  | .parameter => purpose.prohibits "parameters"
  | .exists _ | .first _ | .amongRows _ _ => purpose.prohibits "subqueries"
  | .binary (.compare _) a b => if a.width = b.width then none else some (.engine .misplacedRow)
  | .between a low high =>
      if a.width = low.width ∧ a.width = high.width then none else some (.engine .misplacedRow)
  | .call function _ arguments filter =>
      let isFiltered := filter != .always
      let misused : Option EngineFault :=
        match Function.callFault? function arguments.toList.length isFiltered .row with
        | some (.noFunction _) => if isFiltered then some (.filtered function) else none
        | fault => fault.or (Function.constantFault? function arguments.toList)
      let varies := purpose != .check && Function.varies function
      (misused.map DeclarationFault.engine).or
        (if varies then purpose.prohibits "non-deterministic functions" else none)
  | .over function arguments _ _ =>
      let fault : Option EngineFault :=
        match Function.windowFault? function arguments.toList.length .row with
        | some (.noFunction _) => some (.filtered function)
        | fault => fault
      fault.map DeclarationFault.engine
  | _ => none

mutual

/-- What is wrong with an expression that is looked at after something else that is wrong: only the
expression itself, or the first operand of a function. -/
def Expr.nextMisfit? (purpose : Purpose) (relation : Relation) : Expr → Option DeclarationFault
  | .call function distinct arguments filter =>
      (arguments.nextMisfit? purpose relation).or
        ((Expr.call function distinct arguments filter).ownMisfit? purpose relation)
  | .over function arguments filter window =>
      (arguments.nextMisfit? purpose relation).or
        ((Expr.over function arguments filter window).ownMisfit? purpose relation)
  | e => e.ownMisfit? purpose relation

def Exprs.nextMisfit? (purpose : Purpose) (relation : Relation) : Exprs → Option DeclarationFault
  | .nil => none
  | .cons _ e _ => e.nextMisfit? purpose relation

end

mutual

/-- Why an expression of a table cannot be what it is for. -/
def Expr.misfit? (purpose : Purpose) (relation : Relation) : Expr → Option DeclarationFault
  | .unary _ a | .cast a _ | .collate a _ => a.misfit? purpose relation
  | .binary operator a b =>
      ((Expr.binary operator a b).ownMisfit? purpose relation).or
        ((a.misfit? purpose relation).or (b.misfit? purpose relation))
  | .between a low high =>
      ((Expr.between a low high).ownMisfit? purpose relation).or
        (((a.misfit? purpose relation).or (low.misfit? purpose relation)).or
          (high.misfit? purpose relation))
  | .among a items => (a.misfit? purpose relation).or (items.misfit? purpose relation)
  | .choose condition yes no =>
      ((condition.misfit? purpose relation).or (yes.misfit? purpose relation)).or
        (no.misfit? purpose relation)
  | .call function distinct arguments filter =>
      match (Expr.call function distinct arguments filter).ownMisfit? purpose relation with
      | some fault => some ((arguments.nextMisfit? purpose relation).getD fault)
      | none => arguments.misfit? purpose relation
  | .over function arguments filter window =>
      match (Expr.over function arguments filter window).ownMisfit? purpose relation with
      | some fault => some ((arguments.nextMisfit? purpose relation).getD fault)
      | none => arguments.misfit? purpose relation
  | .row items => items.misfit? purpose relation
  | e => e.ownMisfit? purpose relation

def Exprs.misfit? (purpose : Purpose) (relation : Relation) : Exprs → Option DeclarationFault
  | .nil => none
  | .cons _ e es => (e.misfit? purpose relation).or (es.misfit? purpose relation)

end

mutual

/-- The expression has one value, wherever it stands. Functions count as such. -/
def Expr.isConstant : Expr → Bool
  | .value _ | .truth _ | .parameter => true
  | .unary _ a | .cast a _ | .collate a _ => a.isConstant
  | .binary _ a b => a.isConstant && b.isConstant
  | .between a low high => a.isConstant && low.isConstant && high.isConstant
  | .among a items => a.isConstant && items.isConstant
  | .choose condition yes no => condition.isConstant && yes.isConstant && no.isConstant
  | .call _ _ arguments filter => arguments.isConstant && filter = .always
  | .row items => items.isConstant
  | .over _ _ _ _ | .name _ _ _ | .star _ | .exists _ | .first _ | .amongRows _ _ | .raise _ _ =>
      false

def Exprs.isConstant : Exprs → Bool
  | .nil => true
  | .cons _ e es => e.isConstant && es.isConstant

end
end CodeAudit
