import CodeAudit.Collaborator
import CodeAudit.FunctionRecord
import CodeAudit.Prompt

/-!
Summaries of finished siblings. A client condenses them; without a client, or when it fails, a plain
listing with one line for each sibling takes its place. Siblings with a blank result are ignored.
-/
namespace CodeAudit
namespace GroupSummary

/-- The first letter of each run of letters in upper case and the others in lower case; underscores
become spaces. -/
def titleCaseFrom (afterLetter : Bool) : Text → Text
  | [] => []
  | b :: rest =>
      let c := if b = 95 then 32 else b
      if isLetterByte c then
        (if afterLetter then lowerByte c else upperByte c) :: titleCaseFrom true rest
      else c :: titleCaseFrom false rest

def titleCase (ruleKey : Text) : Text := titleCaseFrom false ruleKey

def excerptLength : Nat := 100

/-- The first bytes of a result, with dots when it is cut, on one line and without blanks at its
ends. -/
def excerpt (result : Text) : Text :=
  let start :=
    if excerptLength < result.length then result.take excerptLength ++ utf8 "..." else result
  Text.trim (start.map (fun b => if b = Text.newline then 32 else b))

def listingLine (task : Task) : Text :=
  utf8 "\n- " ++ titleCase task.ruleKey ++ utf8 " in " ++ shortName task.name ++ utf8 ": " ++
    excerpt task.result

/-- A header and a line for each task; nothing at all for no tasks. -/
def listing : List Task → Text
  | [] => []
  | completed => utf8 "**Found Issues:**" ++ completed.flatMap listingLine

def failureWarning (siblings : Nat) (fault : Fault) : Log.Line :=
  Log.warn "Group summary failed, using text listing"
    [.nat "siblings" siblings, .text "error" fault.message]

/-- Asks the client, if there is one, for a summary of the siblings whose result is not blank. -/
def summarize {ε : Type} (client : Option (Client ε)) : Summarizer ε := fun completed state =>
  match completed.filter (fun t => !t.result.isBlank) with
  | [] => { value := .ok none, state }
  | valid =>
      match client with
      | none => { value := .ok (some (listing valid)), state }
      | some ask =>
          let (call, state) := ask (Prompt.groupSummary valid) state
          match call.answer with
          | .ok summary => { value := .ok (if summary.isBlank then none else some summary), state }
          | .error fault =>
              { value := .ok (some (listing valid)), state
                log := [failureWarning valid.length fault] }

end GroupSummary
end CodeAudit
