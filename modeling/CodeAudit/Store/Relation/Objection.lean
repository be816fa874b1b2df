import CodeAudit.Store.Relation.Amendment
import CodeAudit.Store.Relation.Misuse

/-!
What is wrong with a statement before it does anything: names that are not there, and other numbers
of values than there have to be. What a statement is about is looked for before anything else. A
statement is as wrong as the triggers that it may set off.
-/
namespace CodeAudit

/-- A view as statements find it, with the triggers that do something instead of writing to it. -/
structure Facade where
  view : View
  triggers : List Trigger := []
deriving DecidableEq

namespace Facade

/-- The view with the queries of views where it looks through them itself, or its triggers do. -/
def seeingThrough (views : List View) (facade : Facade) : Facade :=
  { view :=
      match View.expansion views { name := facade.view.name } with
      | some (.query query _) => { facade.view with query }
      | _ => facade.view
    triggers := facade.triggers.map (Trigger.seeingThrough views) }

def source (facade : Facade) : Source := .query facade.view.query (facade.view.heads true)

/-- What the view is looked through as. -/
def relation (s : Setting) (facade : Facade) : Relation :=
  { Relation.ofHeading facade.view.name facade.view.columns (facade.view.query.heading s.bare) with
    triggers := facade.triggers }

def query (facade : Facade) (condition : Expr) : Query :=
  .select .every (.cons none (.star none) .nil)
    (.cons facade.source facade.view.name {} .always .nil) condition .nil
    .always .nil [] .noLimit .noOffset

/-- Why nothing can be done instead of writing to the view. -/
def fault? (s : Setting) (event : Event) (facade : Facade) : Option EngineFault :=
  (facade.source.absence? s).or
    (if facade.triggers.any (fun trigger => trigger.isSetOff false event) then none
    else some (.notWritten facade.view.name))

end Facade

/-- The tables that there are, views, and tables that something looks after which is not there. -/
structure Catalog where
  tables : List Relation
  views : List Facade := []
  others : List (Text × Text) := []

namespace Catalog

def ownNames : List Text := ["sqlite_master", "sqlite_schema"].map utf8

def setting (catalog : Catalog) (scopes : List Scope) : Setting :=
  { tables := catalog.tables, others := catalog.others, scopes }

def view? (views : List Facade) (name : Text) : Option Facade :=
  views.find? (fun facade => facade.view.name.lower == name.lower)

/-- Why a name stands for nothing that can be written to. -/
def targetFault? (s : Setting) (table : Text) : Option EngineFault :=
  if ownNames.contains table.lower then some (.sheltered (utf8 "sqlite_master"))
  else if (Function.table? table).isSome then some (.sheltered table)
  else s.absence? table

/-- What is wrong with what a statement does to a table, or to a view. -/
def about (catalog : Catalog) (s : Setting) (table : Text) (event : Event)
    (ofTable : Relation → Option EngineFault) (ofView : Facade → Relation → Option EngineFault) :
    Option EngineFault :=
  match view? catalog.views table with
  | some facade => (facade.fault? s event).or (ofView facade (facade.relation s))
  | none => (targetFault? s table).or ((s.table? table).bind ofTable)

end Catalog

namespace Query

def fault? (s : Setting) (query : Query) : Option EngineFault :=
  ((query.absence? s).or (query.complaint? s)).or (query.misuse? s)

end Query

namespace Expr

/-- What is wrong with an expression that has one value for each row. -/
def fault? (s : Setting) (e : Expr) : Option EngineFault :=
  (e.complaint? s .row).or (e.misuse? s false)

end Expr

namespace Event

def moves (relation : Relation) : Event → Bool
  | change columns _ _ => columns.any relation.namesNumber
  | _ => false

def touched (relation : Relation) : Event → Touched
  | change columns _ _ => some (relation.changing columns)
  | _ => none

def isDeletion : Event → Bool
  | deletion _ => true
  | _ => false

end Event

namespace Relation

/-- What is wrong with the rules for a row: a function that is not there, or something that is
misused. -/
def ruleComplaint? (relation : Relation) (touched : Touched) : Option EngineFault :=
  let s := Setting.ofRow .bytes .check relation Event.noRow
  let conditions := relation.columns.filterMap Column.computed ++ (relation.checksFor touched).map
    Check.condition
  conditions.findSome? (fun e =>
    match e.complaint? s .row with
    | some (.noFunction name) => some (.unknownFunction name)
    | _ => e.misuse? s false)

/-- Why rows cannot be listed in the indexes that an event is about. -/
def listingFault? (relation : Relation) (event : Event) : Option EngineFault :=
  let concerned := relation.indexes.filter (fun index =>
    event.moves relation || (event.touched relation).meets index.mentions)
  concerned.findSome? (fun index => index.parts.findSome? (fun (_, collation) => collation.fault?))

end Relation

namespace Step

/-- What sets off triggers: an event of a table, of which it is told what is wrong. -/
abbrev Objection := Relation → Event → Option EngineFault

/-- The number of values that a query answers, which has to be that of the columns. -/
def countComplaint? (relation : Relation) (table : Text) (columns : List Text) (values : Nat) :
    Option EngineFault :=
  if columns.isEmpty then
    let wanted := relation.givenColumns.length
    if values = wanted then none else some (.valuesForTable table wanted values)
  else if values = columns.length then none
  else some (.valuesForColumns values columns.length)

/-- What is wrong with the query for new rows, and then with what it is used for. -/
def supplyComplaint? (s : Setting) (relation : Relation) (table : Text) (columns : List Text)
    (rows : Query) (further : Option EngineFault) : Option EngineFault :=
  let count := countComplaint? relation table columns (rows.heading s).length
  match rows with
  | .select .values values _ _ _ _ _ _ _ _ =>
      (((values.complaint? s .row).or count).or further).or (values.misuse? s)
  | rows => ((rows.fault? s).or count).or further

/-- What is wrong with the values for columns, as far as it is found out before they are worked
out. -/
def valuesComplaint? (s : Setting) (relation : Relation) (values : List (List Text × Expr)) :
    Option EngineFault :=
  values.findSome? (fun (names, e) =>
    (e.complaint? s .row).or (names.findSome? relation.changeComplaint?))

/-- How the values for columns are misused. Several columns have as many values. -/
def valuesMisuse? (s : Setting) (values : List (List Text × Expr)) : Option EngineFault :=
  values.findSome? (fun (names, e) =>
    let isWide := names.length != 1
    let width := (e.traits s).length
    (if isWide && width != names.length then some (.assigned names.length width) else none).or
      (e.misuse? s isWide))

def targetComplaint? (s : Setting) (relation : Relation) (amendments : List Amendment) :
    Option EngineFault :=
  amendments.zipIdx.findSome? (fun (amendment, i) =>
    (amendment.parts.findSome? (fun (part, _) => part.complaint? s .row)).or
      (((amendment.only.bind (fun only => only.complaint? s .row))).or
        (if (amendment.target? relation).isSome then none
        else some (.noRule (if amendments.length = 1 then none else some (i + 1))))))

def rivals (relation : Relation) (row new : Row) : List Focus :=
  [(Focus.ofTable relation).withRow row,
    { name := utf8 "excluded", relation, row := new, apart := true }]

def amendmentComplaint? (objection : Objection) (s : Setting) (relation : Relation)
    (amendment : Amendment) :
    Option EngineFault :=
  let both := s.beside (rivals relation Event.noRow Event.noRow)
  amendment.values.bind (fun values =>
    let event : Event := .change (values.flatMap Prod.fst) Event.noRow Event.noRow
    ((valuesComplaint? both relation values).or (amendment.condition.fault? both)).or
      ((valuesMisuse? both values).or (objection relation event)))

/-- What is wrong with values for columns of rows that go together with rows of other sources. -/
def sourcesComplaint? (s : Setting) (focus : Focus) (values : List (List Text × Expr))
    (sources : Sources) (condition : Expr) : Option EngineFault :=
  let inner := s.within (sources.foci s [focus])
  let unknown :=
    values.findSome? (fun (names, _) => names.findSome? focus.relation.changeComplaint?)
  let absent := (sources.absence? s).or (sources.unshared? s sources.keepFurther [focus])
  let wrong := (sources.complaint? s).or (valuesComplaint? inner focus.relation values)
  let misused := ((sources.misnamed? s).or (sources.misuse? s)).or
    ((condition.misuse? inner false).or (sources.onMisuse? inner))
  (((unknown.or absent).or wrong).or
    ((condition.complaint? inner .row).or (sources.onComplaint? inner .row))).or
    (misused.or (valuesMisuse? inner values))

/-- What is wrong with a step, or with the triggers that it may set off. -/
def complaint? (objection : Objection) (catalog : Catalog) (s : Setting) (step : Step) :
    Option EngineFault :=
  match step with
  | .look query => query.unsorted.fault? s
  | .insert _ table columns rows amendments =>
      let event : Event := .insertion Event.noRow
      catalog.about s table event
        (fun relation =>
          let own := s.bare.beside [.ofTable relation]
          let further := (relation.listingFault? event).or
            (targetComplaint? own relation amendments)
          ((relation.insertionComplaint? table columns).or
            (supplyComplaint? s relation table columns rows further)).or
            ((objection relation event).or
              (amendments.findSome? (amendmentComplaint? objection s relation))))
        (fun _ relation =>
          let further := if amendments.isEmpty then none else some .notAmended
          ((relation.insertionComplaint? table columns).or
            (supplyComplaint? s relation table columns rows further)).or
            (objection relation event))
  | .change _ table values sources condition =>
      let event : Event := .change (values.flatMap Prod.fst) Event.noRow Event.noRow
      let own (focus : Focus) (found : Option EngineFault) : Option EngineFault :=
        let inner := s.beside [focus]
        if sources = .nil then
          (((valuesComplaint? inner focus.relation values).or found).or (condition.fault? inner)).or
            (valuesMisuse? inner values)
        else sourcesComplaint? s focus values sources condition
      catalog.about s table event
        (fun relation => (own (.ofTable relation) none).or (objection relation event))
        (fun facade relation =>
          (own { name := relation.name, relation } ((facade.query condition).fault? s)).or
            (objection relation event))
  | .drop table condition =>
      let event : Event := .deletion Event.noRow
      catalog.about s table event
        (fun relation =>
          (condition.fault? (s.beside [.ofTable relation])).or
            (if condition = .always && relation.triggers.all
              (fun trigger => trigger.occasion != .deletion) then none
            else objection relation event))
        (fun facade relation =>
          (((facade.query condition).fault? s).or
            (condition.fault? (s.beside [{ name := relation.name, relation }]))).or
              (objection relation event))

end Step

namespace Catalog

/-- What is wrong with the triggers that an event may set off. None is looked at inside of itself,
so their number bounds the rounds. -/
def objection (catalog : Catalog) : Nat → List Text → Step.Objection
  | 0, _, _, _ => none
  | fuel + 1, active, relation, event =>
      let s := catalog.setting [{ foci := event.foci relation, isQuery := false }]
      let wrong (after : Bool) : Option EngineFault :=
        (relation.triggersFor after event).findSome? (fun trigger =>
          if active.contains trigger.name then none
          else
            (trigger.condition.fault? s).or
              (trigger.steps.findSome?
                (Step.complaint? (catalog.objection fuel (trigger.name :: active)) catalog s)))
      let rules := if event.isDeletion then none
        else relation.ruleComplaint? (event.touched relation)
      (((relation.listingFault? event).or (wrong false)).or rules).or (wrong true)

def triggerCount (catalog : Catalog) : Nat :=
  (catalog.tables.map Relation.triggers ++ catalog.views.map Facade.triggers).foldl
    (fun count triggers => count + triggers.length) 1

def complaint? (catalog : Catalog) : Step.Objection := catalog.objection catalog.triggerCount []

end Catalog
end CodeAudit
