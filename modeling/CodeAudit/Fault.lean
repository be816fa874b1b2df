import CodeAudit.Text

/-!
Everything that can go wrong, by cause. The wording is in `Fault.message` alone and the broad kind
in `Fault.kind`; the rest of the library builds and inspects causes.
-/
namespace CodeAudit

/-- A part that is assembled from others and refuses to be assembled when one is missing. -/
inductive Component where
  | treeBuilder | flowBuilder | analyzer | groupRunner | scanExecutor | scheduler
deriving DecidableEq, Repr

/-- Why the table engine refused a statement. -/
inductive EngineFault where
  | noTable
  | readOnly
  | full
  | cannotOpen
  | notADatabase
  | damaged
  | unsupportedFormat
  | inputOutput
  /-- Somebody else has locked the file. -/
  | locked
  | nestedBegin
  | nothingToCommit
  | nothingToRollBack
  | syntaxNear (word : Text)
  /-- An address on a machine other than this one. -/
  | otherMachine (name : Text)
  /-- An option of an address with a value that it does not know. -/
  | unknown (option : String) (value : Text)
  /-- An option of an address that asks for more access than there is. -/
  | accessTooWide (value : Text)
  /-- A statement names a column that is not there. -/
  | noColumn (name : Text)
  /-- A statement names a column that more than one table has. -/
  | ambiguous (name : Text)
  /-- A new row names a column that the table does not have. -/
  | notAColumn (table column : Text)
  /-- A column whose values follow from others is given one. -/
  | computedColumn (isNew : Bool) (name : Text)
  /-- A new row has more or fewer values than the table has columns. -/
  | valuesForTable (table : Text) (columns values : Nat)
  /-- A new row has more or fewer values than it names columns. -/
  | valuesForColumns (values columns : Nat)
  /-- A trigger names a table that is not there. -/
  | noRelation (name : Text)
  | noIndex (name : Text)
  | noCollation (name : Text)
  /-- Nothing looks after a table. -/
  | noModule (name : Text)
  /-- A trigger writes to what is no table, or to one that may not be written to. -/
  | notWritten (view : Text)
  | notAmended
  | sheltered (table : Text)
  | notAFunction (name : Text)
  | tooManyOperands (function : Text) (most : Nat)
  /-- A query is about itself. -/
  | circular (name : Text)
  | circularView (name : Text)
  | repeatedReference (name : Text)
  | furtherReference (name : Text)
  | recursiveSums
  | recursiveWindows
  /-- A query has more or fewer results than there are names for them. -/
  | resultNames (name : Text) (results names : Nat) (isView : Bool)
  /-- All columns are asked for of something that is not looked through. -/
  | noSource (name : Text)
  /-- All columns are asked for, but nothing is looked through. -/
  | noSources
  /-- Two tables are joined by a column that one of them does not have. -/
  | notShared (column : Text)
  | sharedTwice (column : Text)
  | conditionBesideNatural
  | noFunction (name : Text)
  /-- A function in the declaration of a table that is not there. -/
  | unknownFunction (name : Text)
  | operandCount (function : Text)
  /-- A function that sums up rows where there are none, which may be found out late. -/
  | misplacedSum (function : Text) (isLate : Bool)
  /-- A result that sums up rows is named where there are none. -/
  | misplacedResult (name : Text)
  | filtered (function : Text)
  /-- Of several operands it cannot be told which rows are the same. -/
  | distinctOperands
  | notConstant (function : Text)
  | unsafeUse (function : Text)
  /-- A function that looks at other rows where there are none. -/
  | misplacedWindow (function : Text)
  | misplacedWindowResult (name : Text)
  | notOverWindow (function : Text)
  | filteredWindow
  | noWindow (name : Text)
  | overriddenWindow (part : String) (name : Text)
  | windowKeys
  /-- A window begins, or ends, at a distance that is none. -/
  | windowDistance (isStart : Bool) (type : String)
  | notPositive (operand : String)
  | sumsInGroups
  | conditionWithoutGroups
  /-- Values stand side by side where one is expected, or another number of them. -/
  | misplacedRow
  | resultCount (found expected : Nat)
  /-- Several columns get another number of values. -/
  | assigned (columns values : Nat)
  /-- Queries are put together that answer different numbers of results. -/
  | unequalResults (combination : String)
  | unequalRows
  /-- A key of an order or of groups stands for a result that is not there. -/
  | noResult (place : Nat) (purpose : String) (count : Nat)
  | unknownResult (place : Nat)
  /-- No rule is about what a row is said to repeat. -/
  | noRule (place : Option Nat)
  /-- An integer does not fit into 64 bits. -/
  | overflow
  | badMark
  | patternTooLong
  /-- A text or bytes that nothing holds. -/
  | tooBig
  /-- A function that can be called only for other kinds of tables. -/
  | unusable (function : String)
  /-- A function asks the clock for a value that is kept. -/
  | varies (function place : String)
  | malformedJson
  /-- A path into JSON that cannot be read from some place on. -/
  | badPath (rest : Text)
  | jsonBytes
  | jsonLabels
  | jsonLabelsAlone
  | jsonPairs (function : String)
  /-- The name for something new belongs to something of another kind. -/
  | nameTaken (kind : String) (name : String)
  | typeMismatch
  | viewNotIndexed
  | virtualNotIndexed
  /-- An entry of the catalog that cannot be read, and why. -/
  | badEntry (name : Text) (reason : Text)
deriving DecidableEq, Repr

/-- Why a declaration cannot be read. -/
inductive DeclarationFault where
  | incomplete
  | illegal (token : Text)
  | misplaced (token : Text)
  /-- It declares something else than the catalog lists. -/
  | unlisted
  /-- It tells a database, where there is one only. -/
  | qualified
  | qualifiedTemporary
  | badPage
  /-- An index is listed that no rule has. -/
  | orphan
  | taken (kind : String) (name : Text)
  | takenByIndex (name : Text)
  | repeatedColumn (name : Text)
  | tooManyColumns (table : Text)
  | keyRepeated (table : Text)
  | keyMissing (table : Text)
  | keyComputed
  | keyOfExpressions
  | keyNulls (last : Bool)
  /-- Only integers count. -/
  | keyCannotCount
  | countsWithoutNumbers
  | defaultVaries (column : Text)
  | defaultComputed
  | badComputation (column : Text)
  | allComputed
  | conflictingResolutions
  | unknownTrait (name : Text)
  | typeMissing (table column : Text)
  | typeUnknown (table column type : Text)
  | unknownForeign (column : Text)
  | foreignCount
  | foreignOne (column table : Text)
  | prohibited (what place : String)
  | virtualTrigger
  | systemTrigger
  | viewTrigger (time : String) (view : Text)
  | tableInstead (table : Text)
  | qualifiedStep
  | indexedStep (negated : Bool)
  | returningStep
  | parametersInView
  /-- Something of another database. -/
  | elsewhere (kind : String) (name database : Text)
  | parameterNumber
  | joinMissing (word : String)
  | unknownJoin (words : List Text)
  /-- Something about all results stands in front of a further query. -/
  | early (clause combination : String)
  | repeatedQuery (name : Text)
  | manyOperands (function : Text)
  /-- Another number of values stands side by side in a list. -/
  | listedRow (found expected : Nat)
  | frame
  | distinctWindow
  | engine (cause : EngineFault)
deriving DecidableEq, Repr

/-- A rule of a table that a row breaks. -/
inductive Violation where
  /-- Another row holds the same values in these columns. -/
  | repeated (table : Text) (columns : List Text)
  /-- Another row holds the same values under an index. -/
  | repeatedUnder (index : Text)
  | noValue (table : Text) (column : Text)
  | checkFailed (check : Text)
  /-- A strict table does not take a value of another type. -/
  | wrongType (found : String) (table column type : Text)
  /-- A trigger refuses the row. -/
  | raised (message : Text)
deriving DecidableEq, Repr

/-- Why a data step on a task store was refused. -/
inductive StoreError where
  /-- No task has this id. -/
  | missing (id : UInt64)
  /-- A task with this id is already there. -/
  | taken (id : UInt64)
  /-- A new row breaks a rule of the table. -/
  | conflict (cause : Violation)
  /-- A changed row breaks a rule of the table. -/
  | violation (cause : Violation)
  | engine (cause : EngineFault)
deriving DecidableEq, Repr

/-- Another row holds the same value in a column of the table of tasks that may not repeat any. -/
def StoreError.repeated (column : String) : StoreError :=
  .conflict (.repeated (utf8 "project_task") [utf8 column])

/-- What is wrong with a configuration. -/
inductive SettingsFault where
  | unreadable
  | notEncodable
  | malformed
  | zeroTreeDepth
  | zeroWorkers
  | negativeTimeout
  | noTablePath
  | unknownGraphMode
deriving DecidableEq, Repr

/-- What is wrong with a manifest; entries count from zero. -/
inductive ManifestFault where
  | unreadableFile
  | unreadableText
  | notAList
  | entryNotAMap (entry : Nat)
  | entryLacks (entry : Nat) (key : String)
  | entryModifiers (entry : Nat)
  | entryValue (entry : Nat)
deriving DecidableEq, Repr

inductive Fault.Kind where
  | failure | badArgument | badLogic | badState | timeout | reasoning
deriving DecidableEq, Repr

inductive Fault where
  | missingPart (component : Component)
  | missingRecord
  | zeroFlowDepth
  | noWorkers
  | unstoredTask (name : Text)
  | queueClosed
  | transactionFinished (backend : String)
  | cancelled (task : UInt64)
  | deadlinePassed (task : UInt64) (milliseconds : Int)
  | emptyResponse (task : UInt64)
  | emptyResult
  | notSaved (task : UInt64) (cause : StoreError)
  | engine (cause : EngineFault)
  | settings (cause : SettingsFault)
  | manifest (cause : ManifestFault)
  /-- Raised by a collaborator of the scheduler: a client, an executor, a summarizer or a filter. -/
  | external (kind : Fault.Kind) (message : Text)
deriving DecidableEq, Repr

def Component.complaint : Component → String
  | treeBuilder => "TreeBuilder requires a graph and a function index"
  | flowBuilder => "BusinessFlowBuilder requires a tree builder and a function index"
  | analyzer => "ResolvingRelationshipAnalyzer requires a resolver"
  | groupRunner => "GroupRunner requires a repository and an executor"
  | scanExecutor => "ReasoningTaskExecutor requires a reasoning client"
  | scheduler => "BuildScheduler requires a reasoning client"

/-- The part itself, or the complaint of the component that cannot do without it. -/
def Component.require {α : Type} (component : Component) : Option α → Except Fault α
  | some part => .ok part
  | none => .error (.missingPart component)

/-- A number in a row of things. -/
def ordinal (n : Nat) : Text :=
  let ending :=
    if n % 100 = 11 ∨ n % 100 = 12 ∨ n % 100 = 13 then "th"
    else if n % 10 = 1 then "st"
    else if n % 10 = 2 then "nd"
    else if n % 10 = 3 then "rd"
    else "th"
  Text.ofNat n ++ utf8 ending

def EngineFault.message : EngineFault → Text
  | noTable => utf8 "no such table: project_task"
  | readOnly => utf8 "attempt to write a readonly database"
  | full => utf8 "database or disk is full"
  | cannotOpen => utf8 "unable to open database file"
  | notADatabase => utf8 "file is not a database"
  | damaged => utf8 "database disk image is malformed"
  | unsupportedFormat => utf8 "unsupported file format"
  | inputOutput => utf8 "disk I/O error"
  | locked => utf8 "database is locked"
  | nestedBegin => utf8 "cannot start a transaction within a transaction"
  | nothingToCommit => utf8 "cannot commit - no transaction is active"
  | nothingToRollBack => utf8 "cannot rollback - no transaction is active"
  | syntaxNear word => utf8 "near \"" ++ word ++ utf8 "\": syntax error"
  | otherMachine name => utf8 "invalid uri authority: " ++ name
  | unknown option value => utf8 "no such " ++ utf8 option ++ utf8 ": " ++ value
  | accessTooWide value => utf8 "access mode not allowed: " ++ value
  | noColumn name => utf8 "no such column: " ++ name
  | ambiguous name => utf8 "ambiguous column name: " ++ name
  | notAColumn table column => utf8 "table " ++ table ++ utf8 " has no column named " ++ column
  | computedColumn isNew name =>
      utf8 "cannot " ++ utf8 (if isNew then "INSERT into" else "UPDATE") ++
        utf8 " generated column \"" ++ name ++
        utf8 "\""
  | valuesForTable table columns values =>
      utf8 "table " ++ table ++ utf8 " has " ++ Text.ofNat columns ++ utf8 " columns but " ++
        Text.ofNat values ++ utf8 " values were supplied"
  | valuesForColumns values columns =>
      Text.ofNat values ++ utf8 " values for " ++ Text.ofNat columns ++ utf8 " columns"
  | noRelation name => utf8 "no such table: main." ++ name
  | noIndex name => utf8 "no such index: " ++ name
  | noCollation name => utf8 "no such collation sequence: " ++ name
  | noModule name => utf8 "no such module: " ++ name
  | notWritten view => utf8 "cannot modify " ++ view ++ utf8 " because it is a view"
  | notAmended => utf8 "cannot UPSERT a view"
  | sheltered table => utf8 "table " ++ table ++ utf8 " may not be modified"
  | notAFunction name => utf8 "'" ++ name ++ utf8 "' is not a function"
  | tooManyOperands function most =>
      utf8 "too many arguments on " ++ function ++ utf8 "() - max " ++ Text.ofNat most
  | circular name => utf8 "circular reference: " ++ name
  | circularView name => utf8 "view " ++ name ++ utf8 " is circularly defined"
  | repeatedReference name => utf8 "multiple references to recursive table: " ++ name
  | furtherReference name => utf8 "multiple recursive references: " ++ name
  | recursiveSums => utf8 "recursive aggregate queries not supported"
  | recursiveWindows => utf8 "cannot use window functions in recursive queries"
  | resultNames name results names isView =>
      if isView then
        utf8 "expected " ++ Text.ofNat names ++ utf8 " columns for '" ++ name ++
          utf8 "' but got " ++
          Text.ofNat results
      else
        utf8 "table " ++ name ++ utf8 " has " ++ Text.ofNat results ++ utf8 " values for " ++
          Text.ofNat names ++
          utf8 " columns"
  | noSource name => utf8 "no such table: " ++ name
  | noSources => utf8 "no tables specified"
  | notShared column =>
      utf8 "cannot join using column " ++ column ++ utf8 " - column not present in both tables"
  | sharedTwice column => utf8 "ambiguous reference to " ++ column ++ utf8 " in USING()"
  | conditionBesideNatural => utf8 "a NATURAL join may not have an ON or USING clause"
  | noFunction name => utf8 "no such function: " ++ name
  | unknownFunction name => utf8 "unknown function: " ++ name ++ utf8 "()"
  | operandCount function => utf8 "wrong number of arguments to function " ++ function ++ utf8 "()"
  | misplacedSum function isLate =>
      utf8 (if isLate then "misuse of aggregate: " else "misuse of aggregate function ") ++
        function ++ utf8 "()"
  | misplacedResult name => utf8 "misuse of aliased aggregate " ++ name
  | distinctOperands => utf8 "DISTINCT aggregates must have exactly one argument"
  | notConstant function =>
      utf8 "second argument to " ++ function ++ utf8 "() must be a constant between 0.0 and 1.0"
  | unsafeUse function => utf8 "unsafe use of " ++ function ++ utf8 "()"
  | misplacedWindow function => utf8 "misuse of window function " ++ function ++ utf8 "()"
  | misplacedWindowResult name => utf8 "misuse of aliased window function " ++ name
  | notOverWindow function => function ++ utf8 "() may not be used as a window function"
  | filteredWindow => utf8 "FILTER clause may only be used with aggregate window functions"
  | noWindow name => utf8 "no such window: " ++ name
  | overriddenWindow part name => utf8 "cannot override " ++ utf8 part ++
      utf8 " of window: " ++ name
  | windowKeys => utf8 "RANGE with offset PRECEDING/FOLLOWING requires one ORDER BY expression"
  | windowDistance isStart type =>
      utf8 "frame " ++ utf8 (if isStart then "starting" else "ending") ++
        utf8 " offset must be a non-negative " ++
        utf8 type
  | notPositive operand => utf8 operand ++ utf8 " must be a positive integer"
  | filtered function => utf8 "FILTER may not be used with non-aggregate " ++ function ++ utf8 "()"
  | sumsInGroups => utf8 "aggregate functions are not allowed in the GROUP BY clause"
  | conditionWithoutGroups => utf8 "HAVING clause on a non-aggregate query"
  | misplacedRow => utf8 "row value misused"
  | resultCount found expected =>
      utf8 "sub-select returns " ++ Text.ofNat found ++ utf8 " columns - expected " ++
        Text.ofNat expected
  | assigned columns values =>
      Text.ofNat columns ++ utf8 " columns assigned " ++ Text.ofNat values ++ utf8 " values"
  | unequalResults combination =>
      utf8 "SELECTs to the left and right of " ++ utf8 combination ++
        utf8 " do not have the same number of result columns"
  | unequalRows => utf8 "all VALUES must have the same number of terms"
  | noResult place purpose count =>
      ordinal place ++ utf8 " " ++ utf8 purpose ++
        utf8 " BY term out of range - should be between 1 and " ++
        Text.ofNat count
  | unknownResult place =>
      ordinal place ++ utf8 " ORDER BY term does not match any column in the result set"
  | noRule place =>
      ((place.map (fun n => ordinal n ++ utf8 " ")).getD []) ++
        utf8 "ON CONFLICT clause does not match any PRIMARY KEY or UNIQUE constraint"
  | overflow => utf8 "integer overflow"
  | badMark => utf8 "ESCAPE expression must be a single character"
  | patternTooLong => utf8 "LIKE or GLOB pattern too complex"
  | tooBig => utf8 "string or blob too big"
  | unusable function => utf8 "unable to use function " ++ utf8 function ++
      utf8 " in the requested context"
  | varies function place => utf8 "non-deterministic use of " ++ utf8 function ++ utf8 "() in " ++
      utf8 place
  | malformedJson => utf8 "malformed JSON"
  | badPath rest =>
      utf8 "JSON path error near '" ++ rest.flatMap (fun b => if b = 39 then [39, 39]
        else [b]) ++ utf8 "'"
  | jsonBytes => utf8 "JSON cannot hold BLOB values"
  | jsonLabels => utf8 "json_object() labels must be TEXT"
  | jsonLabelsAlone => utf8 "json_object() requires an even number of arguments"
  | jsonPairs function => utf8 "json_" ++ utf8 function ++
      utf8 "() needs an odd number of arguments"
  | nameTaken kind name =>
      utf8 "there is already " ++ utf8 kind ++ utf8 " named " ++ utf8 name
  | typeMismatch => utf8 "datatype mismatch"
  | viewNotIndexed => utf8 "views may not be indexed"
  | virtualNotIndexed => utf8 "virtual tables may not be indexed"
  | badEntry name reason =>
      utf8 "malformed database schema (" ++ name ++ utf8 ")" ++
        (if reason.isEmpty then [] else utf8 " - " ++ reason)

def DeclarationFault.message : DeclarationFault → Text
  | incomplete => utf8 "incomplete input"
  | illegal token => utf8 "unrecognized token: \"" ++ token ++ utf8 "\""
  | misplaced token => utf8 "near \"" ++ token ++ utf8 "\": syntax error"
  | unlisted => []
  | qualified => utf8 "corrupt database"
  | qualifiedTemporary => utf8 "temporary trigger may not have qualified name"
  | badPage => utf8 "invalid rootpage"
  | orphan => utf8 "orphan index"
  | taken kind name => utf8 kind ++ utf8 " " ++ name ++ utf8 " already exists"
  | takenByIndex name => utf8 "there is already an index named " ++ name
  | repeatedColumn name => utf8 "duplicate column name: " ++ name
  | tooManyColumns table => utf8 "too many columns on " ++ table
  | keyRepeated table => utf8 "table \"" ++ table ++ utf8 "\" has more than one primary key"
  | keyMissing table => utf8 "PRIMARY KEY missing on table " ++ table
  | keyComputed => utf8 "generated columns cannot be part of the PRIMARY KEY"
  | keyOfExpressions => utf8 "expressions prohibited in PRIMARY KEY and UNIQUE constraints"
  | keyNulls last => utf8 "unsupported use of NULLS " ++ utf8 (if last then "LAST" else "FIRST")
  | keyCannotCount => utf8 "AUTOINCREMENT is only allowed on an INTEGER PRIMARY KEY"
  | countsWithoutNumbers => utf8 "AUTOINCREMENT not allowed on WITHOUT ROWID tables"
  | defaultVaries column => utf8 "default value of column [" ++ column ++ utf8 "] is not constant"
  | defaultComputed => utf8 "cannot use DEFAULT on a generated column"
  | badComputation column => utf8 "error in generated column \"" ++ column ++ utf8 "\""
  | allComputed => utf8 "must have at least one non-generated column"
  | conflictingResolutions => utf8 "conflicting ON CONFLICT clauses specified"
  | unknownTrait name => utf8 "unknown table option: " ++ name
  | typeMissing table column => utf8 "missing datatype for " ++ table ++ utf8 "." ++ column
  | typeUnknown table column type =>
      utf8 "unknown datatype for " ++ table ++ utf8 "." ++ column ++ utf8 ": \"" ++
        type ++ utf8 "\""
  | unknownForeign column => utf8 "unknown column \"" ++ column ++
      utf8 "\" in foreign key definition"
  | foreignCount =>
      utf8 "number of columns in foreign key does not match the number of columns in the referenced table"
  | foreignOne column table =>
      utf8 "foreign key on " ++ column ++ utf8
        " should reference only one column of table " ++ table
  | prohibited what place => utf8 what ++ utf8 " prohibited in " ++ utf8 place
  | virtualTrigger => utf8 "cannot create triggers on virtual tables"
  | systemTrigger => utf8 "cannot create trigger on system table"
  | viewTrigger time view => utf8 "cannot create " ++ utf8 time ++ utf8 " trigger on view: " ++ view
  | tableInstead table => utf8 "cannot create INSTEAD OF trigger on table: " ++ table
  | qualifiedStep =>
      utf8 "qualified table names are not allowed on INSERT, UPDATE, and DELETE statements within triggers"
  | indexedStep negated =>
      utf8 "the " ++ utf8 (if negated then "NOT INDEXED" else "INDEXED BY") ++
        utf8 " clause is not allowed on UPDATE or DELETE statements within triggers"
  | returningStep => utf8 "cannot use RETURNING in a trigger"
  | parametersInView => utf8 "parameters are not allowed in views"
  | elsewhere kind name database =>
      utf8 kind ++ utf8 " " ++ name ++ utf8 " cannot reference objects in database " ++ database
  | parameterNumber => utf8 "variable number must be between ?1 and ?250000"
  | joinMissing word => utf8 "a JOIN clause is required before " ++ utf8 word
  | unknownJoin words => utf8 "unknown join type: " ++ Text.join (utf8 " ") words
  | early clause combination =>
      utf8 clause ++ utf8 " clause should come after " ++ utf8 combination ++ utf8 " not before"
  | repeatedQuery name => utf8 "duplicate WITH table name: " ++ name
  | listedRow found expected =>
      utf8 "IN(...) element has " ++ Text.ofNat found ++
        utf8 (if found = 1 then " term" else " terms") ++
        utf8 " - expected " ++ Text.ofNat expected
  | manyOperands function => utf8 "too many arguments on function " ++ function
  | frame => utf8 "unsupported frame specification"
  | distinctWindow => utf8 "DISTINCT is not supported for window functions"
  | engine cause => cause.message

def Violation.message : Violation → Text
  | repeated table columns =>
      utf8 "UNIQUE constraint failed: " ++
        Text.join (utf8 ", ") (columns.map (fun column => table ++ utf8 "." ++ column))
  | repeatedUnder index => utf8 "UNIQUE constraint failed: index '" ++ index ++ utf8 "'"
  | noValue table column => utf8 "NOT NULL constraint failed: " ++ table ++ utf8 "." ++ column
  | checkFailed check => utf8 "CHECK constraint failed: " ++ check
  | wrongType found table column type =>
      utf8 "cannot store " ++ utf8 found ++ utf8 " value in " ++ type ++ utf8 " column " ++ table ++
        utf8 "." ++ column
  | raised message => message

def StoreError.message : StoreError → Text
  | missing id => utf8 "task " ++ Text.ofNat id.toNat
  | taken id => utf8 "task " ++ Text.ofNat id.toNat ++ utf8 " already exists"
  | conflict cause | violation cause => cause.message
  | engine cause => cause.message

def SettingsFault.message : SettingsFault → Text
  | unreadable => utf8 "Failed to load YAML config: <yaml>"
  | notEncodable => utf8 "Failed to serialize YAML to JSON: <protobuf>"
  | malformed => utf8 "Invalid configuration: <protobuf>"
  | zeroTreeDepth => utf8 "Invalid configuration: analysis.max_call_tree_depth must be >= 1"
  | zeroWorkers => utf8 "Invalid configuration: scheduler.workers must be >= 1"
  | negativeTimeout => utf8 "Invalid configuration: scheduler.task_timeout must not be negative"
  | noTablePath => utf8 "Invalid configuration: database.sqlite.path is required"
  | unknownGraphMode => utf8 "Invalid configuration: unknown analysis.call_graph_mode"

def ManifestFault.message : ManifestFault → Text
  | unreadableFile => utf8 "Failed to load function manifest: <yaml>"
  | unreadableText => utf8 "Failed to parse function manifest: <yaml>"
  | notAList => utf8 "Invalid function manifest: expected a list of functions"
  | entryNotAMap entry =>
      utf8 "Invalid function manifest: entry " ++ Text.ofNat entry ++ utf8 " is not a map"
  | entryLacks entry key =>
      utf8 "Invalid function manifest: entry " ++ Text.ofNat entry ++ utf8 " is missing '" ++
        utf8 key ++ utf8 "'"
  | entryModifiers entry =>
      utf8 "Invalid function manifest: 'modifiers' of entry " ++ Text.ofNat entry ++
        utf8 " must be a list"
  | entryValue entry =>
      utf8 "Invalid function manifest: entry " ++ Text.ofNat entry ++ utf8 ": <yaml>"

namespace Fault

def kind : Fault → Kind
  | missingPart _ | missingRecord | zeroFlowDepth | noWorkers | unstoredTask _ => .badArgument
  | queueClosed | transactionFinished _ | notSaved _ _ => .badState
  | cancelled _ | deadlinePassed _ _ => .timeout
  | emptyResponse _ | emptyResult => .reasoning
  | engine _ | settings _ | manifest _ => .failure
  | external kind _ => kind

def message : Fault → Text
  | missingPart component => utf8 component.complaint
  | missingRecord => utf8 "FunctionIndex: null function record"
  | zeroFlowDepth => utf8 "BusinessFlowBuilder: max_depth must be >= 1"
  | noWorkers => utf8 "GroupScheduler: workers must be >= 1"
  | unstoredTask name => utf8 "GroupScheduler: task '" ++ name ++ utf8 "' has not been stored"
  | queueClosed => utf8 "group queue is shut down"
  | transactionFinished backend => utf8 backend ++ utf8 " transaction already finished"
  | cancelled task =>
      utf8 "task " ++ Text.ofNat task.toNat ++ utf8 " cancelled before the reasoning call"
  | deadlinePassed task milliseconds =>
      utf8 "task " ++ Text.ofNat task.toNat ++ utf8 " exceeded " ++ Text.ofInt milliseconds ++
        utf8 "ms"
  | emptyResponse task => utf8 "empty reasoning response for task " ++ Text.ofNat task.toNat
  | emptyResult => utf8 "executor returned an empty result"
  | notSaved task cause =>
      utf8 "persist result for task " ++ Text.ofNat task.toNat ++ utf8 ": " ++ cause.message
  | engine cause => cause.message
  | settings cause => cause.message
  | manifest cause => cause.message
  | external _ message => message

end Fault
end CodeAudit
