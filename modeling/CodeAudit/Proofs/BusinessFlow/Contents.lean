import CodeAudit.Proofs.BusinessFlow.Composition
import CodeAudit.Proofs.CallGraph.Mentions

/-! The text of a flow: the contents of its functions with a blank line between every two. Empty
contents in front are skipped together with the blank lines after them. -/
namespace CodeAudit

namespace Text
variable {separator first next : Text} {rest parts : List Text}

theorem join_cons_cons : join separator (first :: next :: rest) =
    join separator ((first ++ separator ++ next) :: rest) := by
  cases rest with
  | nil => rfl
  | cons other more => simp only [join, List.append_assoc]

theorem join_cons (more : rest ≠ []) :
    join separator (first :: rest) = first ++ separator ++ join separator rest := by
  obtain ⟨next, others, rfl⟩ := List.exists_cons_of_ne_nil more
  rfl

theorem length_join_dropWhile_le (separator : Text) (parts : List Text) :
    (join separator (parts.dropWhile List.isEmpty)).length ≤ (join separator parts).length := by
  induction parts with
  | nil => exact Nat.le_refl 0
  | cons first rest ih =>
    rw [List.dropWhile_cons]
    split
    next =>
      by_cases none : rest = []
      · subst none
        exact Nat.zero_le _
      · rw [join_cons none, List.length_append]
        exact ih.trans (Nat.le_add_left _ _)
    next => exact Nat.le_refl _

/-- Skipping what is empty in front makes a difference exactly if something comes after it. -/
theorem join_dropWhile_eq_iff (visible : separator ≠ []) :
    join separator (parts.dropWhile List.isEmpty) = join separator parts ↔
      parts.length ≤ 1 ∨ parts.head? ≠ some [] := by
  rcases parts with _ | ⟨first, _ | ⟨next, rest⟩⟩
  · exact iff_of_true rfl (.inl (Nat.zero_le 1))
  · refine iff_of_true ?_ (.inl (Nat.le_refl 1))
    cases first <;> rfl
  · cases first with
    | nil =>
      refine iff_of_false (fun same => ?_) ?_
      · have shorter := length_join_dropWhile_le separator (next :: rest)
        have sizes := congrArg List.length same
        rw [List.dropWhile_cons_of_pos rfl, join_cons (List.cons_ne_nil _ _), List.nil_append,
          List.length_append] at sizes
        have positive := List.length_pos_of_ne_nil visible
        omega
      · simp
    | cons b front => exact iff_of_true rfl (.inr (by simp))

end Text

namespace FlowBuilder
variable {text : Text} {contents : List Text}

/-- The next content goes behind a blank line unless there is no text yet. -/
def addContent (text content : Text) : Text :=
  if text.isEmpty then content else text ++ utf8 "\n\n" ++ content

theorem foldl_addContent (some : text ≠ []) :
    contents.foldl addContent text = Text.join (utf8 "\n\n") (text :: contents) := by
  induction contents generalizing text with
  | nil => rfl
  | cons content rest ih =>
    have added : addContent text content = text ++ utf8 "\n\n" ++ content :=
      if_neg (by rwa [List.isEmpty_iff])
    have more : text ++ utf8 "\n\n" ++ content ≠ [] := by simp [some]
    rw [List.foldl_cons, added, ih more, Text.join_cons_cons]

theorem foldl_addContent_nil :
    contents.foldl addContent [] = Text.join (utf8 "\n\n") (contents.dropWhile List.isEmpty) := by
  induction contents with
  | nil => rfl
  | cons content rest ih =>
    rw [List.foldl_cons, show addContent [] content = content from rfl]
    cases content with
    | nil => exact ih
    | cons b front => exact foldl_addContent (List.cons_ne_nil b front)

theorem joinContents_eq (records : List PlacedRecord) : joinContents records =
    Text.join (utf8 "\n\n") ((records.map (fun p => p.record.content)).dropWhile List.isEmpty) := by
  rw [← foldl_addContent_nil, List.foldl_map]
  rfl

/-- The text of a flow joins the contents of its functions from the first that is not empty on. That
is the join of all contents exactly if there are no two functions or the first of them is not
empty. -/
theorem flow_text (b : FlowBuilder) (roots : List Text) :
    let flow := (b.build roots).1
    let contents := flow.records.map (fun p => p.record.content)
    flow.text = Text.join (utf8 "\n\n") (contents.dropWhile List.isEmpty) ∧
    (flow.text = Text.join (utf8 "\n\n") contents ↔
      contents.length ≤ 1 ∨ contents.head? ≠ some []) := by
  intro flow contents
  have joined : flow.text = Text.join (utf8 "\n\n") (contents.dropWhile List.isEmpty) :=
    joinContents_eq flow.records
  refine ⟨joined, ?_⟩
  rw [joined]
  exact Text.join_dropWhile_eq_iff (by decide)

/-- A function without code, and one that calls it. -/
def hollow : List FunctionRecord :=
  [{ name := utf8 "A.a", content := [] }, { name := utf8 "A.b", content := utf8 "a" }]

theorem hollow_calls :
    CallGraph.ofMentions hollow = (CallGraph.ofNames hollow).addCalls [(utf8 "b", utf8 "a")] := rfl

def hollowFlow : BusinessFlow :=
  (build ⟨⟨CallGraph.ofMentions hollow, ⟨hollow⟩, 0⟩, ⟨hollow⟩, 1⟩ [utf8 "a"]).1

/-- The blank line behind the function without code is missing. -/
theorem empty_content_unseparated :
    hollowFlow.records.map (fun p => p.record.content) = [[], utf8 "a"] ∧
      hollowFlow.text = utf8 "a" ∧
    hollowFlow.text ≠ Text.join (utf8 "\n\n")
      (hollowFlow.records.map (fun p => p.record.content)) := by
  have contents : hollowFlow.records.map (fun p => p.record.content) = [[], utf8 "a"] := by
    rw [hollowFlow, hollow_calls]
    cbv
  have text : hollowFlow.text = utf8 "a" := by
    rw [hollowFlow, hollow_calls]
    cbv
  refine ⟨contents, text, ?_⟩
  rw [contents, text]
  decide

end FlowBuilder
end CodeAudit
