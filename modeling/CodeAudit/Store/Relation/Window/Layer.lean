import CodeAudit.Store.Relation.Window.Value

/-!
Windows laid over the rows of a query. Functions of the same window are asked together, with the
rows in the order of the window. The first window is laid over last, and leaves its order behind.
-/
namespace CodeAudit

namespace Function

/-- The rows that a function of windows looks at, whatever is told. -/
def ownFrame? (name : Text) : Option Frame :=
  let frames : List (String × Frame) :=
    [("row_number", { stride := .rows }), ("dense_rank", {}), ("rank", {}),
      ("lag", { stride := .rows }),
      ("percent_rank", { stride := .groups, low := .current, high := .unbounded }),
      ("cume_dist", { stride := .groups, low := .following, high := .unbounded }),
      ("ntile", { stride := .rows, low := .current, high := .unbounded }),
      ("lead", { stride := .rows, high := .unbounded })]
  (frames.find? (fun (known, _) => isNamed name known)).map Prod.snd

end Function

namespace Window

def ofFunction (function : Text) : Window → Window
  | window@(.told base partition sort orders _ _ _) =>
      match Function.ownFrame? function with
      | some frame => .told base partition sort orders frame (.value .null) (.value .null)
      | none => window
  | window => window

/-- A function of a window, with what is known of each row. -/
structure Layer where
  /-- The expression that it is. -/
  expr : Expr
  window : Window
  asked : Asked
  /-- What the values that tell partitions are compared by. -/
  collations : List Collation
  partitions : List (List Cell)

namespace Layer

/-- What the rows are put in order by. -/
def sortings (layer : Layer) : List Query.Sorting :=
  layer.collations.map (fun collation => { collation := collation }) ++ layer.asked.sortings

def keys (layer : Layer) (row : Nat) : List Cell :=
  layer.partitions.getD row [] ++ ((layer.asked.seats[row]?).map Seat.keys).getD []

/-- Two rows belong to one partition. -/
def areTogether (layer : Layer) (a b : Nat) : Bool :=
  Query.sameCells layer.collations (layer.partitions.getD a []) (layer.partitions.getD b [])

def values (layer : Layer) (rows : List Nat) : Except EngineFault (List (Nat × Cell)) := do
  let values ← (rows.splitBy layer.areTogether).mapM (fun rows => do
    let asked := { layer.asked with seats := rows.filterMap (fun row => layer.asked.seats[row]?) }
    return rows.zip (← asked.values))
  return values.flatten

end Layer

/-- The value of a function of a window in a row. Only one of the first window may be JSON as
such. -/
def valueOf (layers : List Layer) (layer : Layer) (cell : Cell) : Expr × Operand :=
  let isFirst := layers.head?.any (fun first => first.window == layer.window)
  (layer.expr, { cell, isJson := isFirst && Function.sumsUpJson layer.asked.function })

/-- The order in which windows leave some rows, and the values that each row has then. -/
def lay (layers : List Layer) (count : Nat) :
    Except EngineFault (List (Nat × List (Expr × Operand))) := do
  let windows := (layers.map Layer.window).eraseDups
  let start : List Nat × List (Nat × Expr × Operand) := (List.range count, [])
  let (order, values) ← windows.reverse.foldlM (fun (order, values) window => do
    let own := layers.filter (fun layer => layer.window == window)
    let sorted :=
      match own.head? with
      | some layer => order.mergeSort
          (fun a b => Query.precedes layer.sortings (layer.keys a) (layer.keys b))
      | none => order
    let found ← own.mapM (fun layer => do
      return (← layer.values sorted).map (fun (row, cell) => (row, valueOf layers layer cell)))
    return (sorted, found.flatten ++ values)) start
  return order.map (fun row => (row, (values.filter (fun (other, _) => other == row)).map Prod.snd))

end Window
end CodeAudit
