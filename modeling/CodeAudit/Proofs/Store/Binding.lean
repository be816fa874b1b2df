import CodeAudit.Store.Table
import Mathlib.Data.List.TakeWhile

/-! Twenty cells are bound for a task, and twenty are read as one. What has been bound is read back
at the same places, up to the first NUL of every text. -/
namespace CodeAudit

theorem Text.beforeNul_idem (text : Text) : text.beforeNul.beforeNul = text.beforeNul :=
  List.takeWhile_idem

namespace Task

/-- The task with every text up to its first NUL. -/
def cut (t : Task) : Task :=
  { t with
    uuid := t.uuid.beforeNul
    projectId := t.projectId.beforeNul
    name := t.name.beforeNul
    content := t.content.beforeNul
    rule := t.rule.beforeNul
    ruleKey := t.ruleKey.beforeNul
    result := t.result.beforeNul
    contractCode := t.contractCode.beforeNul
    startLine := t.startLine.beforeNul
    endLine := t.endLine.beforeNul
    relativePath := t.relativePath.beforeNul
    absolutePath := t.absolutePath.beforeNul
    recommendation := t.recommendation.beforeNul
    flowCode := t.flowCode.beforeNul
    groupId := t.groupId.map Text.beforeNul
    scanRecord := t.scanRecord.beforeNul
    shortResult := t.shortResult.beforeNul }

/-- The columns of an insertion are those of a query, so what is bound at a place is read there. -/
theorem insertColumns_read : insertColumnsWithId = readColumns ∧
    "id" :: insertColumns = readColumns :=
  ⟨rfl, rfl⟩

theorem length_boundWithId (encoding : TextEncoding) (t : Task) :
    (t.boundWithId encoding).length = readColumns.length := rfl

/-- What is bound for a task is read as the task, up to the first NUL of every text. -/
theorem ofCells_boundWithId (t : Task) : ofCells .bytes (t.boundWithId .bytes) = t.cut := by
  obtain ⟨id, uuid, project, name, content, rule, key, result, code, first, last, relative,
    absolute, advice, flow, scan, group, record, short, time⟩ := t
  have scanned : ((if scan then 1 else 0 : Int64).toInt32 != 0) = scan := by
    cases scan <;> rfl
  cases group with
  | none =>
    simp only [ofCells, boundWithId, bound, textCell, cut, List.getD_cons_zero,
      List.getD_cons_succ, Cell.shown, Cell.number, TextEncoding.keep, Text.beforeNul_idem,
      Option.map_none, Option.getD_none, Cell.isNull, scanned]
    rfl
  | some group =>
    simp only [ofCells, boundWithId, bound, textCell, cut, List.getD_cons_zero,
      List.getD_cons_succ, Cell.shown, Cell.number, TextEncoding.keep, Text.beforeNul_idem,
      Option.map_some, Option.getD_some, Cell.isNull, scanned]
    rfl

theorem asRow_eq (t : Task) : t.asRow = t.cut := t.ofCells_boundWithId

/-- Nothing else is bound for what has been read back. -/
theorem bound_asRow (t : Task) : t.asRow.bound .bytes = t.bound .bytes := by
  have text (value : Text) : textCell .bytes value.beforeNul = textCell .bytes value := by
    simp only [textCell, TextEncoding.keep, Text.beforeNul_idem]
  simp only [asRow_eq, bound, cut, text, Option.map_map, Function.comp_def]

end Task
end CodeAudit
