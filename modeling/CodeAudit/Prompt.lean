import CodeAudit.Task

/-! The texts a reasoning client is asked with. -/
namespace CodeAudit
namespace Prompt

/-- The business flow when the task scans one, else the function itself. -/
def codeUnderTest (task : Task) : Text := if task.flowScan then task.flowCode else task.content

/-- An empty summary is left out like a missing one. -/
def scan (task : Task) (groupSummary : Option Text) : Text :=
  utf8 "Review the following code for issues.\n\nCode:\n" ++ codeUnderTest task ++
    utf8 "\n\nRule:\n" ++ task.rule ++
    match groupSummary with
    | none | some [] => []
    | some summary =>
        utf8 "\n\nPreviously Found Issues:\n" ++ summary ++
          utf8 "\n\nExcluding these issues, please continue searching for other potential issues."

/-- One section of the request for a summary. -/
def reportedIssue (task : Task) : Text :=
  utf8 "\n### " ++ task.name ++ utf8 " (" ++ task.ruleKey ++ utf8 ")\n" ++ task.result ++ utf8 "\n"

def groupSummary (completed : List Task) : Text :=
  utf8 "Summarize the issues already reported below as a short list. One line per distinct issue.\n"
    ++
    completed.flatMap reportedIssue

end Prompt
end CodeAudit
