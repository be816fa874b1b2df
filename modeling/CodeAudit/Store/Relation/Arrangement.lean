import CodeAudit.Store.Relation.Comparison

/-!
Rows side by side, in groups, in order and put together, as queries need them.
-/
namespace CodeAudit

namespace Sources

def agree (shared : List Text) (left right : List Focus) : Bool :=
  shared.all (fun name =>
    match (Setting.boundIn none name left).head?, (Setting.boundIn none name right).head? with
    | some a, some b =>
        (a.value.compareBy .equal (a.trait.affinities b.trait) (a.trait.collations b.trait)
          b.value).isTrue
    | _, _ => true)

/-- Rows of a source beside rows of those before it, where they meet a condition together; and
perhaps the rows of either side that have no partner, beside nothing. What the source has may depend
on the rows before. -/
def joined (join : Join) (meets : List Focus → Except Signal Bool)
    (partners : List Focus → Except Signal (List (List Focus))) (blank empty : List Focus)
    (before : List (List Focus)) : Except Signal (List (List Focus)) := do
  let shared := join.sharing blank (empty.flatMap (fun focus => focus.relation.columns))
  let fits (left right : List Focus) : Except Signal Bool :=
    if agree shared left right then meets (left ++ right) else .ok false
  let pairs ← before.mapM (fun left => do
    return (left, ← (← partners left).filterM (fits left)))
  let together := pairs.flatMap (fun (left, partners) =>
    if partners.isEmpty && join.keepsLeft then [left ++ empty]
    else partners.map (fun right => left ++ right))
  let alone ←
    if join.keepsRight then do
      (← partners blank).filterM (fun right => do
        return (← before.filterM (fun left => fits left right)).isEmpty)
    else pure []
  return together ++ alone.map (fun right => blank ++ right)

end Sources

namespace Query

/-- The names of results that are mentioned somewhere, unless they are those of columns. -/
def reachable (foci : List Focus) (names mentioned : List Text) : List Text :=
  (names.map Text.lower).filter (fun name =>
    mentioned.contains name && (Setting.boundIn none name foci).isEmpty)

/-- Some results and what they are ordered by. -/
structure Found where
  results : List Cell
  keys : List Cell

/-- How a key is put in order. If it stands for a result then for the one at a place. -/
structure Sorting where
  collation : Collation
  order : Order := {}
  place : Option Nat := none

/-- The place of the result that a key stands for, if it is one: by its number or by its name. -/
def placeOf? (names : List Text) : Expr → Option Nat
  | .name none name _ => names.findIdx? (fun known => known.lower = name.lower)
  | .collate e _ => placeOf? names e
  | e => e.place?

def means : Expr → Expr → Bool
  | .name a x _, .name b y _ => x.lower == y.lower && (a.isNone || b.isNone || a == b)
  | .collate a _, b => means a b
  | a, b => a == b

/-- The results of a query as they are told, all columns one by one. -/
def told (s : Setting) : Exprs → List (Text × Expr)
  | .nil => []
  | .cons title e es =>
      let own :=
        match e with
        | .star owner =>
            (s.all owner).map (fun binding =>
              ([], Expr.column ((binding.column?.map Column.name).getD [])))
        | e => [((Exprs.nameOf title).getD [], e)]
      own ++ told s es

/-- The results of each of the queries that are put together. -/
def toldOfEach (s : Setting) : Query → List (List (Text × Expr))
  | .select _ results sources _ _ _ _ _ _ _ => [told (s.within (sources.foci s [])) results]
  | .combine _ a b _ _ _ _ => toldOfEach s a ++ toldOfEach s b
  | .recurse _ _ start step _ _ _ _ => toldOfEach s start ++ toldOfEach s step

/-- The place of the result of one of several queries that a key stands for: the first query that
has it tells. -/
def commonPlace? (results : List (List (Text × Expr))) (key : Expr) : Option Nat :=
  results.findSome? (fun results =>
    (placeOf? (results.map Prod.fst) key).or (results.findIdx? (fun (_, e) => means key e)))

/-- How some keys are put in order, of which `own` tells the collations that they have by
themselves. -/
def sortings (heading : Heading) (placeOf : Expr → Option Nat) (own : Expr → Option Collation)
    (sort : List Expr) (orders : List Order) : List Sorting :=
  (sort.zip orders).map (fun (e, order) =>
    let place := placeOf e
    let ofResult := place.bind (fun place => heading.collations[place]?)
    { collation := ((e.told?.or ofResult).or (own e)).getD .binary, order, place })

def Sorting.compare (sorting : Sorting) (a b : Cell) : Ordering :=
  let nothingLast := sorting.order.nullsLast.getD sorting.order.descends
  if a.isNull || b.isNull then
    if a.isNull && b.isNull then .eq
    else if a.isNull != nothingLast then .lt
    else .gt
  else
    let order := a.compareTo sorting.collation b
    if sorting.order.descends then order.swap else order

/-- What comes first by the keys. -/
def precedes : List Sorting → List Cell → List Cell → Bool
  | sorting :: others, a :: as, b :: bs =>
      match sorting.compare a b with
      | .eq => precedes others as bs
      | order => order == .lt
  | _, _, _ => true

/-- Results in the order of their keys, of which some are results themselves. -/
def arranged (sortings : List Sorting) (found : List Found) : List (List Cell) :=
  let settled (found : Found) : List Cell × List Cell :=
    (found.results, (sortings.zip found.keys).map (fun (sorting, key) =>
      (sorting.place.bind (fun place => found.results[place]?)).getD key))
  ((found.map settled).mergeSort (fun a b => precedes sortings a.2 b.2)).map Prod.fst

/-- Cells that are equal, where nothing is equal to nothing. -/
def sameCells (collations : List Collation) (a b : List Cell) : Bool :=
  (collations.zip (a.zip b)).all (fun (collation, (x, y)) => x.compareTo collation y == .eq)

def distinctResults (collations : List Collation) : List Found → List Found
  | [] => []
  | found :: rest =>
      found :: (distinctResults collations rest).filter (fun other =>
        !sameCells collations found.results other.results)

/-- A number of results, which has to be an integer. -/
def counted (cell : Cell) : Except Signal Int64 :=
  match cell.prefer .numeric with
  | .integer n => .ok n
  | _ => .error (.fault .typeMismatch)

/-- What is asked of a query: all rows in their order or in any order, or only the first one. -/
inductive Demand where
  | all | unordered | one
deriving DecidableEq, Repr

/-- How many results there are at most. Who asks for one only is told whether any are wanted. -/
def limited (demand : Demand) (isUnlimited : Bool) (limit : Cell) : Except Signal Int64 :=
  if demand = .one then
    if isUnlimited then .ok 1
    else counted (limit.compareBy .unequal (some .numeric) .binary (.integer 0))
  else counted limit

/-- Some of all results. A number below zero is no limit. -/
def cut {α : Type} (limit offset : Int64) (rows : List α) : List α :=
  let rows := rows.drop offset.toNatClampNeg
  if limit < 0 then rows else rows.take limit.toNatClampNeg

/-- How many results have to be found. -/
def wanted (limit offset : Int64) : Option Nat :=
  if limit < 0 then none else some (limit.toNatClampNeg + offset.toNatClampNeg)

/-- What is found in some rows after something else, up to a number. -/
def gather {α β : Type} (find : α → Except Signal (Option β)) (before : List β) :
    Option Nat → List α → Except Signal (List β)
  | some 0, _ | _, [] => .ok before.reverse
  | wanted, row :: rows => do
      match ← find row with
      | some found => gather find (found :: before) (wanted.map (· - 1)) rows
      | none => gather find before wanted rows

/-- The cells of which a function looks for the least or the largest one, as far as the rows are
among those that are summed up. -/
structure Extreme where
  largest : Bool
  collation : Collation
  isFiltered : Bool
  cells : List (Option Cell)

/-- The cells without those that have come before. -/
def firstCells (collation : Collation) (cells : List (Option Cell)) : List (Option Cell) :=
  (cells.foldl (fun (known, found) cell =>
    match cell with
    | some cell =>
        if known.any (fun (other : Cell) => cell.compareTo collation other == .eq) then
          (known, none :: found)
        else (cell :: known, some cell :: found)
    | none => (known, none :: found)) ([], [])).2.reverse

/-- What is known of the rows so far: the best cell for each function, and whether the last row is
passed over. -/
structure Showing where
  best : List (Option Cell)
  skips : Bool := false

/-- What a row changes. Where no row is known yet the first one is shown if no function asks for
it. -/
def Showing.step (isFirst isMarked : Bool) (showing : Showing)
    (functions : List (Extreme × Option Cell)) : Showing :=
  (functions.zip showing.best).foldl (fun (showing : Showing) ((extreme, cell), best) =>
    let started := if extreme.isFiltered && isMarked then { showing with skips := !isFirst }
      else showing
    match cell, best with
    | none, best => { started with best := showing.best ++ [best] }
    | some .null, best => { best := showing.best ++ [best], skips := best.isSome }
    | some cell, none => { best := showing.best ++ [some cell], skips := false }
    | some cell, some best =>
        if cell.compareTo extreme.collation best == (if extreme.largest then .gt else .lt) then
          { best := showing.best ++ [some cell], skips := false }
        else { best := showing.best ++ [some best], skips := true })
          { best := [], skips := showing.skips }

/-- The row that rows which are summed up show: the first one, unless functions look for the least
or the largest cell. -/
def shownRow {α : Type} (isGrouped : Bool) (extremes : List Extreme) (rows : List α) : Option α :=
  if extremes.isEmpty then rows.head?
  else
    let isMarked := isGrouped || extremes.all Extreme.isFiltered
    let start : Showing × Option α := ({ best := extremes.map (fun _ => none) }, none)
    (rows.zipIdx.foldl (fun (showing, shown) (row, n) =>
      let functions := extremes.map (fun extreme => (extreme, (extreme.cells[n]?).join))
      let next := Showing.step (n == 0) isMarked showing functions
      (next, if next.skips then shown else some row)) start).2

/-- How often a query goes on from a row at most. -/
def mostSteps : Nat := 1000000

/-- The numbers of steps that are tried before that, where only some rows are wanted. -/
def fewerSteps : List Nat := [64, 1024, 16384]

/-- The row that a query goes on from next, of those that wait, and the others. -/
def pick (sortings : List Sorting) (keysOf : List Cell → List Cell) :
    List (List Cell) → Option (List Cell × List (List Cell))
  | [] => none
  | first :: rest =>
      if sortings.isEmpty then some (first, rest)
      else
        let sorted := (first :: rest).mergeSort (fun a b => precedes sortings (keysOf a) (keysOf b))
        (sorted.head?).map (fun row => (row, sorted.tail))

/-- All rows that a query comes to, after some others, when it goes on from each of them. Rows that
have been met may be passed over. -/
def unfold (next : List Cell → Except Signal (List (List Cell)))
    (isNew : List (List Cell) → List Cell → Bool)
    (pick : List (List Cell) → Option (List Cell × List (List Cell))) :
    Nat → Option Nat → (before met waiting : List (List Cell)) → Except Signal (List (List Cell))
  | 0, _, before, _, _ | _, some 0, before, _, _ => .ok before.reverse
  | fuel + 1, wanted, before, met, waiting => do
      match pick waiting with
      | none => return before.reverse
      | some (row, waiting) =>
          if wanted = some 1 then return (row :: before).reverse
          let found ← next row
          let (met, added) := found.foldl (fun (met, added) row =>
            if isNew met row then (row :: met, row :: added) else (met, added)) (met, [])
          unfold next isNew pick fuel (wanted.map (· - 1)) (row :: before) met
            (waiting ++ added.reverse)

/-- Rows in groups with equal keys, in the order of the keys. -/
def grouped {α : Type} (sortings : List Sorting) (rows : List (List Cell × α)) : List (List α) :=
  let sorted := rows.mergeSort (fun a b => precedes sortings a.1 b.1)
  let add (row : List Cell × α) (groups : List (List Cell × List α)) : List (List Cell × List α) :=
    match groups with
    | (keys, members) :: others =>
        if sameCells (sortings.map Sorting.collation) keys row.1 then
          (keys, row.2 :: members) :: others
        else (row.1, [row.2]) :: groups
    | [] => [(row.1, [row.2])]
  (sorted.foldr add []).map Prod.snd

/-- One of every rows that are equal, the last ones of them, in their order. -/
def lastOnes (collations : List Collation) (rows : List (List Cell)) : List (List Cell) :=
  let isRepeated (row : List Cell) (rest : List (List Cell)) : Bool :=
    rest.any (sameCells collations row)
  let rec last : List (List Cell) → List (List Cell)
    | [] => []
    | row :: rest => if isRepeated row rest then last rest else row :: last rest
  last rows

/-- One of every rows that are equal, the first ones of them, in their order. -/
def firstOnes (collations : List Collation) (rows : List (List Cell)) : List (List Cell) :=
  (distinctResults collations (rows.map (fun results => { results, keys := [] }))).map Found.results

/-- Rows of two queries put together. Which one stands for rows that are equal hangs on whether they
are put in order. -/
def putTogether (collations : List Collation) (isSorted : Bool) (combination : Combination)
    (a b : List (List Cell)) :
    List (List Cell) :=
  let has (rows : List (List Cell)) (row : List Cell) : Bool := rows.any (sameCells collations row)
  let each := if isSorted then firstOnes collations else lastOnes collations
  let inOrder (rows : List (List Cell)) : List (List Cell) :=
    rows.mergeSort (precedes (collations.map (fun collation => { collation := collation })))
  match combination with
  | .unionAll => a ++ b
  | .union => inOrder (each (if isSorted then b ++ a else a ++ b))
  | .intersect => inOrder ((each a).filter (has b))
  | .except => inOrder ((each a).filter (fun row => !has b row))

end Query
end CodeAudit
