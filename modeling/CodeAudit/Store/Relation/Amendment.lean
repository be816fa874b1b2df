import CodeAudit.Store.Relation.Event

/-!
What is done instead of adding a row that repeats another one, and the order in which repetitions
are looked for.
-/
namespace CodeAudit

namespace Amendment

/-- What a row repeats that the amendment is about: the number, or what a rule is about. -/
inductive Target where
  | any
  | number
  | rule (rule : UniqueRule)
deriving DecidableEq

namespace Target

def rule? : Target → Option UniqueRule
  | rule r => some r
  | _ => none

/-- What is about one thing is about a repetition of it; the number is no rule. -/
def covers (target : Target) (repeated : Option UniqueRule) : Bool :=
  match target, repeated with
  | any, _ | number, none => true
  | rule r, some repeated => r == repeated
  | _, _ => false

end Target

def fits (relation : Relation) (part : Expr × Option Collation) (ruled : Expr × Collation) : Bool :=
  let place (e : Expr) : Option Nat := e.column?.bind relation.placeOf?
  (part.1 == ruled.1 || (place part.1).any (fun n => place ruled.1 == some n)) &&
    part.2.all (fun collation => collation == ruled.2)

def isAbout (relation : Relation) (amendment : Amendment) (rule : UniqueRule) : Bool :=
  rule.parts.length == amendment.parts.length &&
    rule.parts.all (fun ruled => amendment.parts.any (fun part => fits relation part ruled)) &&
      rule.condition.all (fun condition => amendment.only == some condition)

/-- What the amendment is about, if there is such a thing. -/
def target? (relation : Relation) (amendment : Amendment) : Option Target :=
  match amendment.parts with
  | [] => some .any
  | [(.name _ name _, none)] =>
      if relation.namesNumber name then some .number
      else (relation.uniques.find? (amendment.isAbout relation)).map Target.rule
  | _ => (relation.uniques.find? (amendment.isAbout relation)).map Target.rule

end Amendment

namespace Relation

/-- The rules against repetitions in the order in which they are looked at; none stands for the
number. It comes last if by its own rule the row in the way goes away. What amendments are about
comes before the rest, and the number right before the first amendment that is about it, or after
all of them. -/
def uniqueness (relation : Relation) (override : Option Resolution)
    (targets : List Amendment.Target) :
    List (Option UniqueRule) :=
  let told := targets.takeWhile (fun target => target != .any)
  let rules := (told.filterMap Amendment.Target.rule?).eraseDups
  let leading :=
    ((told.takeWhile (fun target => target != .number)).filterMap Amendment.Target.rule?).eraseDups
  let rest := rules.drop leading.length ++ relation.uniques.filter
    (fun rule => !rules.contains rule)
  if relation.key.isSome then (leading ++ rest).map some
  else if targets.isEmpty ∧ override = none ∧ relation.numberResolution = some .replace then
    (leading ++ rest).map some ++ [none]
  else leading.map some ++ none :: rest.map some

end Relation
end CodeAudit
