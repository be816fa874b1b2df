import CodeAudit.Store.Relation.Expr

/-!
Windows by their names. A window may go on with one that is told before it, unless both tell the
same.
-/
namespace CodeAudit

namespace Frame

/-- The ends come in an order that can be. -/
def isSupported (frame : Frame) : Bool :=
  match frame.low, frame.high with
  | .current, .preceding | .following, .preceding | .following, .current => false
  | _, _ => true

end Frame

namespace Window

abbrev Names := List (Text × Window)

def find (windows : Names) (name : Text) : Except EngineFault Window :=
  match windows.find? (fun (known, _) => known.lower == name.lower) with
  | some (_, window) => .ok window
  | none => .error (.noWindow name)

/-- A window that goes on with the one that it is told to go on with, if any. -/
def chained (windows : Names) : Window → Except EngineFault Window
  | .told (some base) partition sort orders frame low high =>
      match find windows base with
      | .ok (.told _ keys baseSort baseOrders baseFrame _ _) =>
          if !partition.isEmpty then .error (.overriddenWindow "PARTITION clause" base)
          else if !baseSort.isEmpty && !sort.isEmpty then
            .error (.overriddenWindow "ORDER BY clause" base)
          else if baseFrame.isTold then .error (.overriddenWindow "frame specification" base)
          else if baseSort.isEmpty then .ok (.told none keys sort orders frame low high)
          else .ok (.told none keys baseSort baseOrders frame low high)
      | .ok window => .ok window
      | .error cause => .error cause
  | window => .ok window

/-- The window itself, where its name may stand for it. What a named one goes on with does not
matter. -/
def settled (windows : Names) (window : Window) : Window :=
  let found : Except EngineFault Window :=
    match window with
    | .named name =>
        (find windows name).map (fun window =>
          match window with
          | .told _ partition sort orders frame low high =>
              .told none partition sort orders frame low high
          | window => window)
    | window => chained windows window
  match found with
  | .ok window => window
  | .error cause => .refused cause

end Window

mutual

def Expr.within (windows : Window.Names) : Expr → Expr
  | .unary operator a => .unary operator (a.within windows)
  | .binary operator a b => .binary operator (a.within windows) (b.within windows)
  | .collate a collation => .collate (a.within windows) collation
  | .cast a affinity => .cast (a.within windows) affinity
  | .between a low high => .between (a.within windows) (low.within windows) (high.within windows)
  | .among a items => .among (a.within windows) (items.within windows)
  | .amongRows a query => .amongRows (a.within windows) query
  | .choose condition yes no => .choose (condition.within windows) (yes.within windows)
      (no.within windows)
  | .call function distinct arguments filter =>
      .call function distinct (arguments.within windows) (filter.within windows)
  | .over function arguments filter window =>
      .over function (arguments.within windows) (filter.within windows) (window.settled windows)
  | .row items => .row (items.within windows)
  | e => e

def Exprs.within (windows : Window.Names) : Exprs → Exprs
  | .nil => .nil
  | .cons title e es => .cons title (e.within windows) (es.within windows)

end

mutual

/-- The functions of windows in an expression, as they are written. -/
def Expr.overs : Expr → List Expr
  | .unary _ a | .cast a _ | .collate a _ | .amongRows a _ => a.overs
  | .binary _ a b => a.overs ++ b.overs
  | .between a low high => a.overs ++ low.overs ++ high.overs
  | .among a items => a.overs ++ items.overs
  | .choose condition yes no => condition.overs ++ yes.overs ++ no.overs
  | .call _ _ arguments _ => arguments.overs
  | .over function arguments filter window => [.over function arguments filter window]
  | .row items => items.overs
  | _ => []

def Exprs.overs : Exprs → List Expr
  | .nil => []
  | .cons _ e es => e.overs ++ es.overs

end

mutual

/-- The expression has one value, which no function is asked for. -/
def Expr.isFixed : Expr → Bool
  | .value _ | .truth _ | .parameter => true
  | .unary _ a | .cast a _ | .collate a _ => a.isFixed
  | .binary _ a b => a.isFixed && b.isFixed
  | .between a low high => a.isFixed && low.isFixed && high.isFixed
  | .among a items => a.isFixed && items.isFixed
  | .choose condition yes no => condition.isFixed && yes.isFixed && no.isFixed
  | .row items => items.isFixed
  | _ => false

def Exprs.isFixed : Exprs → Bool
  | .nil => true
  | .cons _ e es => e.isFixed && es.isFixed

end
end CodeAudit
