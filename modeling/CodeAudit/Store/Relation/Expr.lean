import CodeAudit.Store.Relation.Arithmetic

/-!
What declarations are made of: expressions, queries over tables, and the steps of a trigger. A step
adds, changes or drops rows, or only looks at them.
-/
namespace CodeAudit

/-- What is done about a row that breaks a rule. -/
inductive Resolution where
  /-- The statement does nothing. -/
  | abort
  /-- The statement ends here, but keeps what it has done. -/
  | stop
  /-- The open transaction is dropped. -/
  | rollback
  /-- The row is passed over. -/
  | skip
  /-- What is in the way of the row goes away. -/
  | replace
deriving DecidableEq, Repr

inductive Unary where
  | negate | same | flip | not | isNull
  /-- Counts as true, or else as false. -/
  | isTrue (expected : Bool)
deriving DecidableEq, Repr

/-- How two cells are compared; the last two take nothing for a value like others. -/
inductive Comparison where
  | less | atMost | more | atLeast | equal | unequal | alike | unlike
deriving DecidableEq, Repr

inductive Binary where
  | calculate (operation : Operation)
  | compare (comparison : Comparison)
  | joined | bitAnd | bitOr | shiftLeft | shiftRight | and | or
  /-- The second operand is looked at only if it matters. -/
  | andThen | orElse
deriving DecidableEq, Repr

/-- How results are put together. -/
inductive Combination where
  | union | unionAll | intersect | except
deriving DecidableEq, Repr

namespace Combination

def spelling : Combination → String
  | union => "UNION"
  | unionAll => "UNION ALL"
  | intersect => "INTERSECT"
  | except => "EXCEPT"

end Combination

/-- What a query answers: a result for every row, each result once, or a row of values by itself. -/
inductive Selection where
  | every | distinct | values
deriving DecidableEq, Repr

/-- What joins a table to those before it: whether their rows stay without a partner, and its
own. -/
structure Join where
  keepsLeft : Bool := false
  keepsRight : Bool := false
  /-- All columns of one name are equal. -/
  natural : Bool := false
  /-- Columns of these names are equal. -/
  shared : List Text := []
deriving DecidableEq, Repr

/-- An order by one key, and where nothing stands in it if that is told. -/
structure Order where
  descends : Bool := false
  nullsLast : Option Bool := none
deriving DecidableEq, Repr

/-- What a column belongs to: something of a name, perhaps of a database that is told. -/
structure Owner where
  name : Text
  database : Option Text := none
deriving DecidableEq, Repr

/-- What a result is called: by a name of its own, or as it is written. -/
structure Title where
  text : Text
  isTold : Bool
deriving DecidableEq, Repr

/-- A table by its name, and the index in which its rows are to be looked up. -/
structure TableName where
  name : Text
  database : Option Text := none
  index : Option Text := none
deriving DecidableEq, Repr

/-- Names for the results of a query. -/
structure Heads where
  /-- What the query is known as. -/
  owner : Text := []
  isView : Bool := false
  names : List Text := []
deriving DecidableEq, Repr

/-- What the distance from a row to the ends of its window is counted in: rows, the difference of
what they are ordered by, or rows that are equal in the order. -/
inductive Stride where
  | rows | range | groups
deriving DecidableEq, Repr

/-- Where a window ends: with the first or the last row, some way from the row it belongs to, or
with that row. -/
inductive Edge where
  | unbounded | preceding | current | following
deriving DecidableEq, Repr

/-- What is left out of a window: nothing, its own row, rows that are equal to that, or only the
others of these. -/
inductive Exclusion where
  | nothing | row | equals | others
deriving DecidableEq, Repr

/-- The rows of a window, as far as they are told without distances. -/
structure Frame where
  stride : Stride := .range
  low : Edge := .unbounded
  high : Edge := .current
  exclusion : Exclusion := .nothing
  isTold : Bool := false
deriving DecidableEq, Repr

mutual

inductive Expr where
  | value (cell : Cell)
  /-- What is to be given a value later. It never is. -/
  | parameter
  /-- The word for what counts as true, or as false. -/
  | truth (b : Bool)
  /-- A column, perhaps of something that is named. In double quotes it may be a text. -/
  | name (owner : Option Owner) (name : Text) (quoted : Bool)
  /-- All columns. -/
  | star (owner : Option Text)
  | unary (operator : Unary) (a : Expr)
  | binary (operator : Binary) (a b : Expr)
  | collate (a : Expr) (collation : Collation)
  | cast (a : Expr) (affinity : Affinity)
  | between (a low high : Expr)
  | among (a : Expr) (items : Exprs)
  | amongRows (a : Expr) (query : Query)
  | choose (condition yes no : Expr)
  /-- A function, which sums up only rows that meet a condition if it sums up rows. -/
  | call (function : Text) (distinct : Bool) (arguments : Exprs) (filter : Expr)
  /-- A function of the rows in a window. -/
  | over (function : Text) (arguments : Exprs) (filter : Expr) (window : Window)
  | exists (query : Query)
  | first (query : Query)
  /-- Values that stand side by side. -/
  | row (items : Exprs)
  /-- Refuses the row that set off the trigger. -/
  | raise (resolution : Resolution) (message : Text)

/-- Rows around each row, of those that are equal in some keys and in the order of others. -/
inductive Window where
  | named (name : Text)
  /-- A window that may go on with another one. The distances to both ends are told where the frame
  needs them. -/
  | told (base : Option Text) (partition sort : Exprs) (orders : List Order) (frame : Frame)
      (low high : Expr)
  /-- What is no window, and why. -/
  | refused (cause : EngineFault)

/-- Expressions, perhaps with names. -/
inductive Exprs where
  | nil
  | cons (title : Option Title) (head : Expr) (tail : Exprs)

inductive Query where
  | select (selection : Selection) (results : Exprs) (sources : Sources) (condition : Expr)
      (groups : Exprs)
      (having : Expr) (sort : Exprs) (orders : List Order) (limit offset : Expr)
  | combine (combination : Combination) (a b : Query) (sort : Exprs) (orders : List Order)
      (limit offset : Expr)
  /-- What begins with some rows and goes on with a step from each row that it comes to, or from
  each only once. -/
  | recurse (each : Bool) (heads : Heads) (start step : Query) (sort : Exprs) (orders : List Order)
      (limit offset : Expr)

inductive Source where
  | table (table : TableName)
  | query (query : Query) (heads : Heads)
  | function (name : Text) (arguments : Exprs)
  /-- The query that goes on with the step in which this stands. -/
  | itself (heads : Heads)
  /-- Several sources together. -/
  | nested (sources : Sources)
  /-- What has no rows, and why. -/
  | refused (cause : EngineFault)

/-- What a query looks through, each under the name that it goes by. -/
inductive Sources where
  | nil
  | cons (source : Source) (known : Text) (join : Join) (on : Expr) (tail : Sources)

end

deriving instance DecidableEq for Expr, Window, Exprs, Query, Source, Sources

namespace Exprs

def ofList : List Expr → Exprs
  | [] => nil
  | e :: es => cons none e (ofList es)

def toList : Exprs → List Expr
  | nil => []
  | cons _ e es => e :: es.toList

def nameOf (title : Option Title) : Option Text := (title.filter Title.isTold).map Title.text

def toNamed : Exprs → List (Option Text × Expr)
  | nil => []
  | cons title e es => (nameOf title, e) :: es.toNamed

def names (es : Exprs) : List Text := es.toNamed.filterMap Prod.fst

def isEmpty : Exprs → Bool
  | nil => true
  | cons _ _ _ => false

end Exprs

namespace Expr

def not (a : Expr) : Expr := unary .not a

def always : Expr := truth true

/-- The expression where only its truth is asked for. Operands are looked at as far as they
matter. -/
def asked : Expr → Expr
  | binary .and a b => binary .andThen a.asked b.asked
  | binary .or a b => binary .orElse a.asked b.asked
  | unary .not a => unary .not a.asked
  | unary (.isTrue expected) a => unary (.isTrue expected) a.asked
  | e => e

/-- The expression is what does not count as true. -/
def isFalse : Expr → Bool
  | value (.integer 0) => true
  | _ => false

def column (name : Text) : Expr := .name none name false

/-- No results are left out, at the end or at the beginning. -/
def noLimit : Expr := value (.integer (-1))

def noOffset : Expr := value (.integer 0)

/-- The number that an expression is without looking at anything, if it is small. -/
def count? : Expr → Option Int
  | value (.integer n) => if -2147483648 < n ∧ n < 2147483648 then some n.toInt else none
  | unary .same a | collate a _ => a.count?
  | unary .negate a => a.count?.map (- ·)
  | _ => none

/-- The place of a result that the expression stands for by its number. -/
def place? (e : Expr) : Option Nat := e.count?.map (fun n => (n - 1).toNat)

/-- A column that the expression stands for by itself. -/
def column? : Expr → Option Text
  | name none column _ => some column
  | _ => none

end Expr

namespace Sources

def areSeveral : Sources → Bool
  | cons _ _ _ _ (cons _ _ _ _ _) => true
  | _ => false

end Sources

namespace Query

/-- A query without an order, of which no results are left out. -/
def plain (selection : Selection) (results : Exprs) (sources : Sources) : Query :=
  select selection results sources .always .nil .always .nil [] .noLimit .noOffset

def ofValues (values : Exprs) : Query := plain .values values .nil

def ofSources (sources : Sources) : Query := plain .every (.cons none (.star none) .nil) sources

def ofBoth (combination : Combination) (a b : Query) : Query :=
  combine combination a b .nil [] .noLimit .noOffset

def unsorted : Query → Query
  | select selection results sources condition groups having _ _ limit offset =>
      select selection results sources condition groups having .nil [] limit offset
  | combine combination a b _ _ limit offset => combine combination a b .nil [] limit offset
  | recurse each heads start step _ _ limit offset =>
      recurse each heads start step .nil [] limit offset

end Query

/-- What is done instead of adding a row that repeats what may not be repeated. -/
structure Amendment where
  /-- The rule that the row breaks, and the condition that belongs to it; any rule if it is not
  told. -/
  parts : List (Expr × Option Collation) := []
  only : Option Expr := none
  /-- What the row in the way is given, if anything, and the condition for it. -/
  values : Option (List (List Text × Expr)) := none
  condition : Expr := .always
deriving DecidableEq

inductive Step where
  | insert (resolution : Option Resolution) (table : Text) (columns : List Text) (rows : Query)
      (amendments : List Amendment)
  /-- Each value is one for several columns if there is more than one name. -/
  | change (resolution : Option Resolution) (table : Text) (values : List (List Text × Expr))
      (sources : Sources)
      (condition : Expr)
  | drop (table : Text) (condition : Expr)
  | look (query : Query)
deriving DecidableEq

end CodeAudit
