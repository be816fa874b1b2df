import CodeAudit.Store.Relation.Token
import CodeAudit.Store.Relation

/-!
What a catalog lists. A declaration has to declare what it is listed as, under a name that nothing
before it has.
-/
namespace CodeAudit

inductive CatalogKind where
  | view | virtualTable | index | trigger
deriving DecidableEq, Repr

/-- Something with a name that is no table with rows. -/
structure CatalogEntry where
  kind : CatalogKind
  name : Text
  /-- It goes away with the table of tasks. -/
  belongs : Bool := false
  /-- What looks after a table whose rows are not kept here. -/
  keeper : Text := []
deriving DecidableEq, Repr

/-- The name that a declaration is for. -/
structure Headline where
  name : Token
  /-- The name of a database stands before it. -/
  isQualified : Bool := false
  /-- What is there already may stay. -/
  mayExist : Bool := false

structure IndexPage where
  table : Text
  index : Text
  page : Nat
deriving DecidableEq, Repr

/-- What a catalog lists an entry as, and what it has listed before. -/
structure Listing where
  kind : Text
  name : Text
  owner : Text
  /-- The page where it starts. -/
  root : Nat
  tables : List Relation := []
  entries : List CatalogEntry := []
  indexPages : List IndexPage := []

namespace Headline

/-- The name in front of the rest of a declaration, if there is a rest. -/
def read? (tokens : List Token) : Option (Headline × List Token) :=
  let mayExist := Token.startsWith "if" tokens
  match if mayExist then (Token.after? ["if", "not", "exists"] tokens).getD [] else tokens with
  | first :: dot :: rest =>
      if dot.isMark "." then
        match rest with
        | second :: next :: rest =>
            some ({ name := second, isQualified := true, mayExist }, next :: rest)
        | _ => none
      else some ({ name := first, mayExist }, dot :: rest)
  | _ => none

def text (headline : Headline) : Text := headline.name.name?.getD []

end Headline

namespace Listing

def has (listing : Listing) (kind : CatalogKind) (name : Text) : Bool :=
  listing.entries.any (fun entry => entry.kind == kind && entry.name.lower == name.lower)

def catalog : Relation :=
  { name := utf8 "sqlite_master"
    columns := ["type", "name", "tbl_name", "rootpage", "sql"].map (fun name =>
      { name := utf8 name, affinity := if name = "rootpage" then .integer else .text }) }

def table? (listing : Listing) (name : Text) : Option Relation :=
  if name.lower = catalog.name ∨ name.lower = utf8 "sqlite_schema" then some catalog
  else listing.tables.find? (fun table => table.name.lower == name.lower)

def hasTable (listing : Listing) (name : Text) : Bool :=
  (listing.table? name).isSome || listing.has .view name || listing.has .virtualTable name

def ruled? (listing : Listing) (index : Text) : Option Relation :=
  listing.tables.find?
    (fun table => table.uniques.any (fun rule => rule.index.lower == index.lower))

def hasIndex (listing : Listing) (name : Text) : Bool :=
  listing.has .index name || (listing.ruled? name).isSome

def refuseOther (listing : Listing) (kind : String) (name owner : Text) :
    Except DeclarationFault Unit :=
  if listing.kind.lower == utf8 kind && listing.name.lower == name.lower &&
    listing.owner.lower == owner.lower then
    .ok ()
  else .error .unlisted

/-- Whether a table or a view is new. It may be there already only if that is told. Only the catalog
starts at the first page. -/
def isNew (listing : Listing) (kind : String) (headline : Headline) :
    Except DeclarationFault Bool := do
  let name := if listing.root = 1 then catalog.name else headline.text
  if headline.isQualified && listing.root != 1 then throw .qualified
  listing.refuseOther kind name name
  if listing.hasTable name then
    if headline.mayExist then return false
    else throw (.taken (if listing.has .view name then "view" else "table") headline.name.raw)
  else if listing.hasIndex name then throw (.takenByIndex name)
  else return true

def refuseSharedPage (listing : Listing) (table index : Text) : Except DeclarationFault Unit :=
  if listing.indexPages.any (fun other =>
      other.table.lower == table.lower && other.index.lower != index.lower &&
        other.page == listing.root) then
    .error .badPage
  else .ok ()

/-- The entry, without a declaration, is that of an index. The page where it starts is told. -/
def indexPage (listing : Listing) : Except DeclarationFault IndexPage := do
  if !listing.hasIndex listing.name then throw .orphan
  if listing.root < 2 then throw .badPage
  let table := (listing.ruled? listing.name).elim listing.owner Relation.name
  listing.refuseSharedPage table listing.name
  return { table, index := listing.name, page := listing.root }

end Listing
end CodeAudit
