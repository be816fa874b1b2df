import CodeAudit.CallTree.Outline
import CodeAudit.Logger
import CodeAudit.Manifest
import CodeAudit.Session
import CodeAudit.Settings.Reader

/-!
The command line: `tree` shows the call trees and the business flow of functions in a manifest,
`tasks` lists the stored tasks of a project. Exit status 1 tells a wrong call or an unknown
function, and 2 a fault.
-/
namespace CodeAudit

/-- What a run of the program leaves behind. It logs at a level of its own once it has its
settings. -/
structure Outcome where
  status : UInt32 := 0
  output : Text := []
  errors : Text := []
  log : List Log.Line := []
  level : Option Log.Level := none
deriving DecidableEq, Repr

/-- A text to be put out, and the lines that were logged while it was made. -/
abbrev Passage := Text × List Log.Line

def Outcome.add (outcome : Outcome) (passage : Passage) : Outcome :=
  { outcome with output := outcome.output ++ passage.1, log := outcome.log ++ passage.2 }

namespace CommandLine

/-- The files the program may read. -/
structure Files where
  document : Text → DocumentFile
  disk : Disk

inductive Command where
  | tree (manifest : Text) (names : List Text)
  | tasks (project : Option Text)
deriving DecidableEq, Repr

structure Call where
  config : Option Text
  command : Command
deriving DecidableEq, Repr

def usage : Text :=
  utf8 "Usage:\n  auditflow [--config <config.yaml>] tree <functions.yaml> <function>...\n" ++
    utf8 "  auditflow [--config <config.yaml>] tasks [project_id]\n"

def command? : List Text → Option Command
  | [] => none
  | verb :: rest =>
      if verb = utf8 "tree" then
        match rest with
        | manifest :: name :: names => some (.tree manifest (name :: names))
        | _ => none
      else if verb = utf8 "tasks" then some (.tasks rest.head?)
      else none

/-- An empty configuration path is none at all. -/
def call? : List Text → Option Call
  | option :: path :: rest =>
      if option = utf8 "--config" then
        (command? rest).map (fun command =>
          { config := if path.isEmpty then none else some path, command })
      else (command? (option :: path :: rest)).map (fun command => { config := none, command })
  | args => (command? args).map (fun command => { config := none, command })

def settings (files : Files) : Option Text → Except Fault Settings
  | some path => Settings.load (files.document path)
  | none => do
      let settings := Settings.withDefaults {}
      settings.validate
      return settings

def depthCountsLine (label : String) (counts : DepthCounts) : Text :=
  utf8 label ++ utf8 ":" ++ (if counts.isEmpty then utf8 " none" else []) ++
    counts.flatMap (fun (depth, count) =>
      utf8 " depth " ++ Text.ofNat depth ++ utf8 "=" ++ Text.ofNat count) ++ utf8 "\n"

def treeSection (session : AnalysisSession) (name : Text) (direction : Direction) : Passage :=
  let title := utf8 "== " ++ utf8 direction.name ++ utf8 " of " ++ name ++ utf8 " ==\n"
  match session.trees.build name direction [] with
  | (none, log) => (title, log)
  | (some tree, log) =>
      let note :=
        if tree.truncated then utf8 "(truncated at " ++ Text.ofNat tree.size ++ utf8 " nodes)\n"
        else []
      (title ++ tree.outline ++ note, log)

def flowSection (session : AnalysisSession) (roots : List Text) : Passage :=
  let (flow, log) := session.flows.build roots
  (utf8 "== business flow (max depth " ++ Text.ofNat session.flows.maxDepth.toNat ++ utf8 ", " ++
      Text.ofNat flow.records.length ++ utf8 " functions) ==\n" ++
      depthCountsLine "upstream" flow.upstream ++ depthCountsLine "downstream" flow.downstream ++
      utf8 "\n" ++ flow.text ++ utf8 "\n",
    log)

/-- The trees of the names in turn, up to the first unknown one, then the flow of them all. Names
may be qualified. -/
def showTrees (session : AnalysisSession) (roots : List Text) : List Text → Outcome → Outcome
  | [], outcome => outcome.add (flowSection session roots)
  | name :: rest, outcome =>
      let short := shortName name
      if (session.index.find? short).isNone then
        { outcome with status := 1, errors := utf8 "unknown function: " ++ name ++ utf8 "\n" }
      else
        showTrees session (roots ++ [short]) rest
          ((outcome.add (treeSection session short .upstream)).add
            (treeSection session short .downstream))

/-- An outcome, or a fault and what was logged before it. -/
abbrev Attempt := Except Fault Outcome × List Log.Line

def runTree (files : Files) (s : Settings) (manifest : Text) (names : List Text) : Attempt :=
  match Manifest.load manifest (files.document manifest) with
  | (.error fault, log) => (.error fault, log)
  | (.ok records, log) =>
      match s.analysisSession records with
      | (.error fault, more) => (.error fault, log ++ more)
      | (.ok session, more) => (.ok (showTrees session [] names { log := log ++ more }), [])

def taskLine (task : Task) : Text :=
  Text.join (utf8 "\t")
    [Text.ofNat task.id.toNat, utf8 (if task.isDone then "done" else "pending"),
     task.groupId.getD (utf8 "-"), task.name, task.ruleKey] ++ utf8 "\n"

def taskList (project : Text) (tasks : List Task) : Text :=
  tasks.flatMap taskLine ++ Text.ofNat tasks.length ++ utf8 " task(s) in project '" ++ project ++
    utf8 "'\n"

/-- Lists the tasks of a project. -/
def listTasks {σ τ : Type} [TaskStore σ τ] (store : σ) (project : Text) (log : List Log.Line) :
    Attempt :=
  let reply := TaskStore.projectTasks project store
  let log := log ++ reply.log
  match reply.value with
  | .error fault => (.error fault, log)
  | .ok tasks => (.ok { output := taskList project tasks, log }, [])

def runTasks (files : Files) (s : Settings) (project : Option Text) : Attempt :=
  let project := project.getD s.projectId
  match s.openStore files.disk with
  | (.error fault, log) => (.error fault, log)
  | (.ok (.memory store), log) => listTasks store project log
  | (.ok (.table store), log) => listTasks store project log

/-- A fault is logged and ends the program. -/
def fail (fault : Fault) (log : List Log.Line) : Outcome :=
  { status := 2, log := log ++ [Log.error "Fatal error" [.text "error" fault.message]] }

def perform (files : Files) (call : Call) : Outcome :=
  match settings files call.config with
  | .error fault => fail fault []
  | .ok s =>
      let attempt :=
        match call.command with
        | .tree manifest names => runTree files s manifest names
        | .tasks project => runTasks files s project
      let outcome :=
        match attempt with
        | (.ok outcome, _) => outcome
        | (.error fault, log) => fail fault log
      { outcome with level := some (Logger.configure none {} s).level }

/-- Runs the program on its arguments. -/
def run (files : Files) (args : List Text) : Outcome :=
  match call? args with
  | none => { status := 1, errors := usage }
  | some call => perform files call

end CommandLine
end CodeAudit
