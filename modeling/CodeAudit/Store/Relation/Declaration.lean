import CodeAudit.Store.Relation.Draft
import CodeAudit.Store.Relation.Listing
import CodeAudit.Store.Relation.Mention
import CodeAudit.Store.Relation.StepGrammar

/-!
Declarations of tables, views, indexes and triggers as a catalog keeps them. What refers to other
tables is not looked into, and a condition that is not understood is left out. A declaration is
refused for what is wrong with its beginning before it is refused for not going on as it has to.
-/
namespace CodeAudit

inductive Declaration where
  | table (relation : Relation)
  /-- A view, and what it stands for unless that is not understood. -/
  | view (name : Text) (view : Option View)
  /-- A table, and what looks after its rows. -/
  | virtualTable (name keeper : Text)
  /-- An index, unless it is not understood. -/
  | index (name owner : Text) (index : Option Index)
  | trigger (name owner : Text) (trigger : Option Trigger)
  /-- What was there before, or a beginning. -/
  | nothing

namespace Declaration

/-! Tables. -/

/-- A table is only told what tables can be. -/
def traitFault? (trait : Clause.Trait) : Option DeclarationFault :=
  if trait.name.lower = utf8 (if trait.negated then "rowid" else "strict") then none
  else some (.unknownTrait trait.name)

/-- Goes on unless something is wrong. -/
def refuse (fault : Option DeclarationFault) : Except DeclarationFault Unit :=
  match fault with
  | some fault => .error fault
  | none => .ok ()

def ofTable (listing : Listing) (isWhole : Bool) (tokens : List Token) :
    Except DeclarationFault Declaration := do
  match Headline.read? tokens with
  | none => return .nothing
  | some (headline, rest) =>
      let isNew ← listing.isNew "table" headline
      if Token.startsWith "as" rest then
        if isNew && isWhole then throw .unlisted
        else return .nothing
      else
        let (clauses, rest) := Clause.read (rest.drop 1)
        let blank : Draft := { relation := { name := headline.text, columns := [] } }
        let draft ← (if isNew then clauses else []).foldlM Draft.add blank
        let traits := Clause.traitsFrom false rest
        refuse (traits.dropLast.findSome? traitFault?)
        let last := traits.getLast?.bind traitFault?
        if isNew && isWhole then
          let has (negated : Bool) : Bool :=
            traits.any (fun trait => trait.negated == negated && (traitFault? trait).isNone)
          return .table (← draft.complete (has false) (has true) last)
        else
          refuse last
          return .nothing

/-- A table whose rows are looked after elsewhere. -/
def ofVirtualTable (listing : Listing) (isWhole : Bool) (tokens : List Token) :
    Except DeclarationFault Declaration := do
  match Headline.read? tokens with
  | some (headline, _ :: keeper :: _ :: _) =>
      let isNew ← listing.isNew "table" headline
      return if isNew && isWhole then .virtualTable headline.text (keeper.name?.getD [])
        else .nothing
  | _ => return .nothing

/-! Views and indexes, which are looked at when all of them has been read. -/

def understood {α : Type} : Reader.Outcome α → Except DeclarationFault (Option α)
  | .ok value => .ok (some value)
  | .error none => .ok none
  | .error (some fault) => .error fault

def refuseElsewhere (kind : String) (name : Text) (databases : List Text) :
    Except DeclarationFault Unit :=
  match databases.find? (fun database => database.lower != utf8 "main") with
  | some database => .error (.elsewhere kind name database)
  | none => .ok ()

def ofView (listing : Listing) (isWhole : Bool) (tokens : List Token) :
    Except DeclarationFault Declaration := do
  match Headline.read? tokens with
  | none => return .nothing
  | some (headline, rest) =>
      let (columns, rest) := Grammar.namesAt rest
      let query ← understood ((Token.after? ["as"] rest).elim (.error none) Grammar.query)
      if !isWhole then return .nothing
      if tokens.any (fun token => token.kind == .parameter) then throw .parametersInView
      if !(← listing.isNew "view" headline) then return .nothing
      refuseElsewhere "view" headline.name.raw (query.elim [] (fun (query, _) => query.databases))
      if listing.root ≠ 0 then throw .unlisted
      return .view headline.text
        (query.map (fun (query, _) => { name := headline.text, columns, query }))

/-- A part of an index with its collation. A text stands for a column, and what is quoted for a text
if there is no such column. -/
def partOf (relation : Relation) (e : Expr) : Expr × Collation :=
  let (bare, told) := Draft.bare e
  let column (name : Text) : Option Column :=
    (relation.placeOf? name).bind (fun place => relation.columns[place]?)
  match bare with
  | .name none name quoted =>
      match column name with
      | some column => (.column column.name, told.getD column.collation)
      | none => (if quoted then .value (.text name) else bare, told.getD .binary)
  | .value (.text name) =>
      (.column name, told.getD (((column name).map Column.collation).getD .binary))
  | bare => (bare, told.getD .binary)

/-- A part of an index, where a text stands for a column. -/
def partNamed : Expr → Expr
  | .value (.text name) => .column name
  | .collate (.value (.text name)) collation => .collate (.column name) collation
  | e => e

/-- Why an index cannot be over some parts of the rows that meet a condition. Once something is
wrong with the condition the parts are hardly looked into. -/
def indexFault? (relation : Relation) (parts : List Expr) (condition : Option Expr) :
    Option DeclarationFault :=
  match condition.bind (fun e => e.misfit? .choice relation) with
  | some fault =>
      some ((parts.head?.bind (fun e => (partNamed e).nextMisfit? .indexing relation)).getD fault)
  | none => parts.findSome? (fun e => (partNamed e).misfit? .indexing relation)

/-- An index over parts of the rows of a table that meet a condition. -/
def indexOf (isUnique : Bool) (relation : Relation) (name : Text) (parts : List Expr)
    (condition : Option Expr) :
    Except DeclarationFault Index := do
  refuse (indexFault? relation parts condition)
  return { name, parts := parts.map (partOf relation), condition, isUnique }

def ofIndex (listing : Listing) (isUnique isWhole : Bool) (tokens : List Token) :
    Except DeclarationFault Declaration := do
  match Headline.read? tokens with
  | some (headline, _ :: owner :: rest) =>
      let owner := owner.name?.getD []
      match Token.enclosed? rest with
      | none => return .nothing
      | some (inside, rest) =>
          let keys := (← understood (Grammar.keys (inside ++ [Token.stop]))).map Prod.fst
          let condition ←
            match Token.after? ["where"] rest with
            | some rest => pure ((← understood (Grammar.read rest)).map (fun (e, _) => some e))
            | none => pure (some none)
          if !isWhole then return .nothing
          Draft.refuseNulls (keys.getD [])
          if headline.isQualified then throw .qualified
          if !listing.hasTable owner then throw (.engine (.noRelation owner))
          if listing.has .view owner then throw (.engine .viewNotIndexed)
          if listing.has .virtualTable owner then throw (.engine .virtualNotIndexed)
          listing.refuseOther "index" headline.text owner
          if listing.hasIndex headline.text then
            if headline.mayExist then return .nothing
            else throw (.taken "index" headline.text)
          match listing.table? owner, keys, condition with
          | some relation, some keys, some condition =>
              let index ← indexOf isUnique relation headline.text (keys.map Prod.fst) condition
              listing.refuseSharedPage owner headline.text
              return .index headline.text owner (some index)
          | _, _, _ =>
              listing.refuseSharedPage owner headline.text
              return .index headline.text owner none
  | _ => return .nothing

/-! Triggers. -/

/-- The columns that a trigger waits for. -/
def watched (tokens : List Token) : Option (List Text) :=
  match Token.after? ["of"] tokens with
  | some rest =>
      some ((rest.takeWhile (fun token => !token.isWord "on")).filterMap (fun token =>
        if token.isMark "," then none else token.name?))
  | none => none

def occasionOf (tokens : List Token) : Occasion :=
  if Token.startsWith "insert" tokens then .insertion
  else if Token.startsWith "update" tokens then .change (watched (tokens.drop 1))
  else .deletion

/-- The condition of a trigger, unless it is not understood, and the steps that follow it. -/
def conditionAt (tokens : List Token) : Except DeclarationFault (Option Expr × List Token) := do
  match Token.after? ["when"] tokens with
  | none => return (some .always, tokens)
  | some rest =>
      match ← understood (Grammar.read rest) with
      | some (e, rest) => return (some e.asked, rest)
      | none => return (none, tokens.dropWhile (fun token => !token.isWord "begin"))

/-- Why a trigger cannot belong to what has a name. -/
def refuseOwner (listing : Listing) (headline : Headline) (time : List Token) (owner : Text) :
    Except DeclarationFault Unit := do
  let isView := listing.has .view owner
  let waits := Token.startsWith "after" time
  let replaces := Token.startsWith "instead" time
  if !listing.hasTable owner then throw (.engine (.noRelation owner))
  if listing.has .virtualTable owner then throw .virtualTrigger
  listing.refuseOther "trigger" headline.text owner
  if listing.has .trigger headline.text then
    if headline.mayExist then return
    else throw (.taken "trigger" headline.name.raw)
  if (utf8 "sqlite_").isPrefixOf owner.lower then throw .systemTrigger
  if isView && !replaces then throw (.viewTrigger (if waits then "AFTER" else "BEFORE") owner)
  if !isView && replaces then throw (.tableInstead owner)

def ofTrigger (listing : Listing) (isTemporary isWhole : Bool) (tokens : List Token) :
    Except DeclarationFault Declaration := do
  match Headline.read? tokens with
  | none => return .nothing
  | some (headline, time) =>
      let event := Token.skipWords ["before", "after", "instead", "of"] time
      let rest := (event.dropWhile (fun token => !token.isWord "on")).drop 1
      let owner := (rest.head?.bind Token.name?).getD []
      let (owner, rest) :=
        match Token.afterMark? "." (rest.drop 1) with
        | some (name :: rest) => (name.name?.getD [], rest)
        | _ => (owner, rest.drop 1)
      let (condition, rest) ← conditionAt (Token.skipWords ["for", "each", "row"] rest)
      match Token.after? ["begin"] rest with
      | none => return .nothing
      | some rest =>
          if headline.isQualified then
            throw (if isTemporary then .qualifiedTemporary else .qualified)
          refuseOwner listing headline time owner
          let steps ← understood (Step.readAll rest)
          if !isWhole || listing.has .trigger headline.text then return .nothing
          match condition, steps with
          | some condition, some steps =>
              refuseElsewhere "trigger" headline.text
                (steps.flatMap Step.databases ++ condition.databases)
              return .trigger headline.text owner (some {
                name := headline.text, occasion := occasionOf event, after :=
                  Token.startsWith "after" time, condition
                steps })
          | _, _ => return .trigger headline.text owner none

/-! All declarations. -/

/-- What tokens declare, which may be only those at the beginning. -/
def ofTokens (listing : Listing) (isWhole : Bool) (tokens : List Token) :
    Except DeclarationFault Declaration :=
  let isTemporary := tokens.head?.any (Token.isOneOf ["temp", "temporary"])
  match if isTemporary then tokens.drop 1 else tokens with
  | [] => .ok .nothing
  | kind :: rest =>
      if kind.isWord "trigger" then ofTrigger listing isTemporary isWhole rest
      else
        let rest := if isWhole then rest.takeWhile (fun token => !token.isMark ";") ++ [Token.stop]
          else rest
        if kind.isWord "table" then ofTable listing isWhole rest
        else if kind.isWord "virtual" then ofVirtualTable listing isWhole (rest.drop 1)
        else if kind.isWord "view" then ofView listing isWhole rest
        else if kind.isWord "unique" then ofIndex listing true isWhole (rest.drop 1)
        else ofIndex listing false isWhole rest

/-- The declaration that a text is, or the first thing that is wrong with it. -/
def read (listing : Listing) (t : Text) : Except DeclarationFault Declaration := do
  let tokens := Token.settled false (Token.stopped (Token.read t))
  match Way.fault? [Way.begin] 0 tokens with
  | none => ofTokens listing true (tokens.drop 1)
  | some (place, fault) =>
      let _ ← ofTokens listing false ((tokens.take place).drop 1)
      throw fault

end Declaration
end CodeAudit
