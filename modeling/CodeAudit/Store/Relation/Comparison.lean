import CodeAudit.Store.Relation.Function.Table
import CodeAudit.Store.Relation.Setting

/-!
Comparisons. Cells are compared as the columns they come from prefer, and in the order of their
collation; nothing counts as neither true nor false. Both are known of an expression before it has a
value.
-/
namespace CodeAudit

namespace Affinity

def isNumeric : Affinity → Bool
  | numeric | integer | real => true
  | _ => false

/-- What two cells of columns that prefer something are compared as. -/
def compared : Option Affinity → Option Affinity → Option Affinity
  | some a, some b => if a.isNumeric || b.isNumeric then some numeric else none
  | some a, none | none, some a => some a
  | none, none => none

end Affinity

namespace Cell

def isText : Cell → Bool
  | text _ => true
  | _ => false

def ofText : Cell → Cell
  | text t => ofNumericText t
  | cell => cell

def matched (affinity : Option Affinity) (a b : Cell) : Cell × Cell :=
  match affinity with
  | some .text => if a.isText || b.isText then (a.prefer .text, b.prefer .text) else (a, b)
  | some .blob | none => (a, b)
  | _ => (a.ofText, b.ofText)

def holds (comparison : Comparison) (order : Ordering) : Bool :=
  match comparison with
  | .less => order == .lt
  | .atMost => order != .gt
  | .more => order == .gt
  | .atLeast => order != .lt
  | .equal | .alike => order == .eq
  | .unequal | .unlike => order != .eq

def compareBy (comparison : Comparison) (affinity : Option Affinity) (collation : Collation)
    (a b : Cell) : Cell :=
  let (a, b) := matched affinity a b
  let outcome := ofBool (holds comparison (a.compareTo collation b))
  match comparison with
  | .alike | .unlike => outcome
  | _ => if a.isNull || b.isNull then null else outcome

end Cell

mutual

def Expr.told? : Expr → Option Collation
  | .collate _ collation => some collation
  | .unary _ a | .cast a _ => a.told?
  | .binary _ a b => a.told?.or b.told?
  | .between a low high => (a.told?.or low.told?).or high.told?
  | .among a items => a.told?.or items.told?
  | .amongRows a _ => a.told?
  | .choose condition yes no => (condition.told?.or yes.told?).or no.told?
  | .call _ _ arguments _ | .over _ arguments _ _ => arguments.told?
  | _ => none

def Exprs.told? : Exprs → Option Collation
  | .nil => none
  | .cons _ e es => e.told?.or es.told?

end

namespace Trait

def affinities (a b : Trait) : Option Affinity := Affinity.compared a.affinity b.affinity

def collations (a b : Trait) : Collation :=
  (((a.told.or b.told).or a.column).or b.column).getD .binary

end Trait

/-- Names of results and what is known of them. -/
abbrev Heading := List (Text × Trait)

namespace Heading

def collations (heading : Heading) : List Collation :=
  heading.map (fun (_, trait) => trait.collation?.getD .binary)

def collated (heading other : Heading) : Heading :=
  heading.zipWith (fun (name, a) (_, b) => (name, { a with column := a.column.or b.collation? }))
    other

/-- What results are called that are looked through: by what they are called themselves, unless that
is a truth word, or else by their place. -/
def names (told : List Text) (heading : Heading) : List Text :=
  heading.zipIdx.map (fun ((own, _), place) =>
    let name := told.getD place own
    let isWord := ["", "true", "false"].any (fun word => name.lower == utf8 word)
    if isWord then utf8 "column" ++ Text.ofNat (place + 1) else name)

/-- A name without a number that makes it differ from others. -/
def stem (name : Text) : Text :=
  match name.reverse.dropWhile isDigitByte with
  | 58 :: rest => if rest.isEmpty then name else rest.reverse
  | _ => name

/-- A name that is not among some others, with a number behind it if need be. -/
def distinctName (others : List Text) (name : Text) : Text :=
  let isTaken (name : Text) : Bool := others.any (fun other => other.lower == name.lower)
  if isTaken name then
    let numbered := (List.range (others.length + 1)).map
      (fun n => stem name ++ [58] ++ Text.ofNat (n + 1))
    (numbered.find? (fun name => !isTaken name)).getD name
  else name

def distinctNames (names : List Text) : List Text :=
  names.foldl (fun known name => known ++ [distinctName known name]) []

end Heading

namespace Relation

/-- A table of the results of a query, perhaps under names of their own. -/
def ofHeading (name : Text) (told : List Text) (heading : Heading) : Relation :=
  { name
    key := some []
    columns := ((Heading.distinctNames (heading.names told)).zip heading).map
      (fun (name, _, trait) =>
      { name
        affinity := trait.affinity.getD .blob
        collation := trait.collation?.getD .binary }) }

end Relation

namespace Expr

/-- The names of the results that an expression makes, which may have been given one. -/
def resultNames (s : Setting) (title : Option Title) : Expr → List Text
  | star owner => (s.all owner).map (fun binding => (binding.column?.map Column.name).getD [])
  | name _ column _ => [(Exprs.nameOf title).getD column]
  | collate e _ => e.resultNames s title
  | _ => [(title.map Title.text).getD []]

end Expr

namespace Exprs

def givenNames (s : Setting) : Exprs → List Text
  | nil => []
  | cons title e es => (e.resultNames s none).map (fun _ => (nameOf title).getD []) ++
      es.givenNames s

end Exprs

mutual

/-- What is known of the values of an expression, of which there may be several. -/
def Expr.traits (s : Setting) : Expr → List Trait
  | .name owner name _ => [((s.resolve owner name).head?.map Meaning.trait).getD {}]
  | .star owner => (s.all owner).map Binding.trait
  | .cast a affinity =>
      [{ affinity := some affinity, told := a.told?,
         column := (a.traits s).head?.bind Trait.column }]
  | .collate a collation =>
      [{ affinity := (a.traits s).head?.bind Trait.affinity, told := some collation }]
  | .unary .same a => [{ told := a.told?, column := (a.traits s).head?.bind Trait.column }]
  | .first query => (query.heading s).map (fun (_, trait) => { affinity := trait.affinity })
  | .row items => (items.heading s).map Prod.snd
  | e => [{ told := e.told? }]

/-- The names of results, and what is known of them. -/
def Exprs.heading (s : Setting) : Exprs → Heading
  | .nil => []
  | .cons title e es => (e.resultNames s title).zip (e.traits s) ++ es.heading s

def Query.heading (s : Setting) : Query → Heading
  | .select _ results sources _ _ _ _ _ _ _ => results.heading (s.within (sources.foci s []))
  | .combine _ a _ _ _ _ _ => a.heading s
  | .recurse _ _ start _ _ _ _ _ => start.heading s

/-- What is looked at in a source, without rows. A table that is missing is left out. -/
def Source.foci (s : Setting) (known : Text) : Source → List Focus
  | .table table =>
      ((s.table? table.name).map (fun relation =>
        { name := known, relation, isStored := true, absent := true })).toList
  | .query query heads =>
      [{ name := known, relation := .ofHeading known heads.names (query.heading s),
         absent := true }]
  | .function name _ =>
      ((Function.table? name).map (fun relation =>
        { name := known, relation, absent := true })).toList
  | .itself _ => (s.itself.map (fun relation => { name := known, relation, absent := true })).toList
  | .nested sources => sources.foci s []
  | .refused _ => []

/-- What a query looks through, without rows, after some that come before. -/
def Sources.foci (s : Setting) (before : List Focus) : Sources → List Focus
  | .nil => before
  | .cons source known join _ tail =>
      tail.foci s (before ++ join.besides before (source.foci s known))

end

namespace Query

/-- What results are compared by where queries are put together: by the collations of the first
query that has any. -/
def compared (s : Setting) : Query → Heading
  | combine _ a b _ _ _ _ => (a.compared s).collated (b.compared s)
  | recurse _ heads start step _ _ _ _ =>
      let itself := Relation.ofHeading heads.owner heads.names (start.heading s)
      (start.compared s).collated (step.compared { s with itself := some itself })
  | query => query.heading s

end Query

namespace Expr

/-- What is known of the value of an expression. -/
def trait (s : Setting) (e : Expr) : Trait := ((e.traits s).head?).getD {}

/-- Whether a row of cells is equal to one of some others; nothing if it may be. -/
def membership (traits : List (Option Affinity × Collation)) (cells : List Cell)
    (rows : List (List Cell)) : Cell :=
  let outcomes := rows.map (fun row =>
    let parts := (traits.zip (cells.zip row)).map (fun ((affinity, collation), (x, y)) =>
      x.compareBy .equal affinity collation y)
    if parts.any (fun part => part.truth? == some false) then some false
    else if parts.any Cell.isNull then none
    else some true)
  if outcomes.contains (some true) then .integer 1
  else if outcomes.contains none then .null
  else .integer 0

/-- The outcome of a comparison of cells that stand side by side: the first ones that differ
tell. -/
def compareRows (comparison : Comparison) : List (Trait × Trait) → List Cell → List Cell → Cell
  | (a, b) :: traits, x :: xs, y :: ys =>
      let equal :=
        x.compareBy (if comparison = .alike ∨ comparison = .unlike then .alike else .equal)
        (a.affinities b) (a.collations b) y
      if xs.isEmpty then x.compareBy comparison (a.affinities b) (a.collations b) y
      else
        match comparison with
        | .equal | .alike =>
            if equal.truth? = some false then .integer 0
            else
              let rest := compareRows comparison traits xs ys
              if rest.truth? = some false then .integer 0 else if equal.isNull then .null else rest
        | .unequal | .unlike =>
            if equal.truth? = some false then .integer 1
            else
              let rest := compareRows comparison traits xs ys
              if rest.isTrue then .integer 1 else if equal.isNull then .null else rest
        | _ =>
            if equal.isTrue then compareRows comparison traits xs ys
            else x.compareBy comparison (a.affinities b) (a.collations b) y
  | _, _, _ => .null

end Expr

namespace Exprs

/-- The first collation among those of expressions. -/
def collation? (s : Setting) (es : Exprs) : Option Collation :=
  es.toList.findSome? (fun e => (e.trait s).collation?)

end Exprs
end CodeAudit
