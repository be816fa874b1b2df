import CodeAudit.CallGraph
import CodeAudit.FunctionRecord
import CodeAudit.Log

/-!
Calls read off the wording of function bodies. A body that contains another function's short name as
a whole word counts as a call of it, whatever the word stands in: a comment, a literal or a
declaration.
-/
namespace CodeAudit

/-- Letters, digits, the underscore and every byte of a multi-byte character. -/
def isWordByte (b : UInt8) : Bool := b ≥ 128 || isLetterByte b || isDigitByte b || b == 95

/-- The two neighbours of a word's end differ: one belongs to a word and the other does not. Nothing
stands outside the text. -/
def isBoundary (before after : Option UInt8) : Bool := before.any isWordByte != after.any isWordByte

/-- The word stands at the front of a text, with a boundary at either end. -/
def startsWithWord (word : Text) (before : Option UInt8) (text : Text) : Bool :=
  word.isPrefixOf text && isBoundary before text.head? &&
    isBoundary word.getLast? (text.drop word.length).head?

/-- The word stands somewhere in a text that follows a given byte. -/
def hasWordAfter (word : Text) (before : Option UInt8) : Text → Bool
  | [] => startsWithWord word before []
  | b :: rest => startsWithWord word before (b :: rest) || hasWordAfter word (some b) rest

/-- Whole-word search that ignores the case of ASCII letters; the empty word is never found. -/
def containsWord (text word : Text) : Bool :=
  !word.isEmpty && hasWordAfter word.lower none text.lower

namespace CallGraph

/-- Positions of caller and callee in the list of records, callees first to last and for each of
them its callers first to last. Records that share a short name do not call each other. -/
def mentions (records : List FunctionRecord) : List (Nat × Nat) :=
  let placed := records.zipIdx
  placed.flatMap fun (callee, j) =>
    placed.filterMap fun (caller, i) =>
      if caller.shortName ≠ callee.shortName ∧ containsWord caller.content callee.shortName then
        some (i, j)
      else none

/-- A function for each short name, and no calls. -/
def ofNames (records : List FunctionRecord) : CallGraph :=
  records.foldl (fun g r => g.addFunction r.shortName) {}

/-- A function for each short name and a call for each mention. -/
def ofMentions (records : List FunctionRecord) : CallGraph :=
  (mentions records).foldl
    (fun g (caller, callee) =>
      match records[caller]?, records[callee]? with
      | some a, some b => g.addCall a.shortName b.shortName
      | _, _ => g)
    (ofNames records)

/-- How relationships are found. -/
inductive Analyzer where
  /-- By whole-word mentions. -/
  | lexical
  /-- Not at all, for very large projects. -/
  | disabled
deriving DecidableEq, Repr

def Analyzer.analyze (records : List FunctionRecord) : Analyzer → CallGraph × List Log.Line
  | lexical =>
      let g := ofMentions records
      (g, [Log.info "Call graph built"
        [.nat "functions" g.functionCount, .nat "edges" g.edgeCount]])
  | disabled =>
      let g := ofNames records
      (g, [Log.warn "Call graph construction disabled, relationships skipped"
        [.nat "functions" g.functionCount]])

end CallGraph
end CodeAudit
