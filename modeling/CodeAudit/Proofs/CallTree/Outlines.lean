import CodeAudit.CallTree.Outline
import CodeAudit.Proofs.CallGraph.Words
import CodeAudit.Proofs.CallTree.Enumeration
import CodeAudit.Proofs.CallTree.Shapes

/-! A tree can be read back from its outline. Names may hold anything but a newline, so a name is
told from the strokes left of it by where it stands: the strokes of a line end with the first
branch, and what follows the name is read from the end of the line. -/
namespace CodeAudit

section Runs
variable {α : Type} {p : α → Bool} {front front' after after' : List α}

/-- Where a run ends is known from the run alone. -/
theorem run_unique (inside : ∀ x ∈ front, p x = true) (inside' : ∀ x ∈ front', p x = true)
    (stop : ∀ x ∈ after.head?, p x = false) (stop' : ∀ x ∈ after'.head?, p x = false)
    (same : front ++ after = front' ++ after') : front = front' ∧ after = after' := by
  have first := Text.eq_takeWhile_iff.mpr ⟨inside, after, rfl, stop⟩
  have second := Text.eq_takeWhile_iff.mpr ⟨inside', after', rfl, stop'⟩
  rw [same, ← second] at first
  subst first
  exact ⟨rfl, List.append_cancel_left same⟩

/-- The same for a run at the end. -/
theorem last_run_unique (inside : ∀ x ∈ after, p x = true) (inside' : ∀ x ∈ after', p x = true)
    (stop : ∀ x ∈ front.getLast?, p x = false) (stop' : ∀ x ∈ front'.getLast?, p x = false)
    (same : front ++ after = front' ++ after') : front = front' ∧ after = after' := by
  have turned := congrArg List.reverse same
  rw [List.reverse_append, List.reverse_append] at turned
  obtain ⟨later, former⟩ := run_unique (p := p) (by simpa using inside) (by simpa using inside')
    (by simpa using stop) (by simpa using stop') turned
  exact ⟨List.reverse_injective former, List.reverse_injective later⟩

end Runs

namespace Text

theorem ofNat_injective {n m : Nat} (same : ofNat n = ofNat m) : n = m := by
  rw [← (decimal_ofNat n).value, ← (decimal_ofNat m).value, same]

/-- Lines that hold no newline are told apart by the newlines after them. -/
theorem lines_unique {lines lines' : List Text} (plain : ∀ line ∈ lines, newline ∉ line)
    (plain' : ∀ line ∈ lines', newline ∉ line)
    (same : lines.flatMap (· ++ [newline]) = lines'.flatMap (· ++ [newline])) : lines = lines' := by
  induction lines generalizing lines' with
  | nil =>
    cases lines' with
    | nil => rfl
    | cons line' lines' => simp at same
  | cons line lines ih =>
    cases lines' with
    | nil => simp at same
    | cons line' lines' =>
      rw [List.forall_mem_cons] at plain plain'
      rw [List.flatMap_cons, List.flatMap_cons, List.append_assoc, List.append_assoc] at same
      have within : ∀ {line : Text}, newline ∉ line → ∀ b ∈ line, (b != newline) = true :=
        fun absent b listed => bne_iff_ne.mpr (ne_of_mem_of_not_mem listed absent)
      obtain ⟨rfl, rest⟩ := run_unique (within plain.1) (within plain'.1) (by simp) (by simp) same
      rw [ih plain.2 plain'.2 (List.append_cancel_left rest)]

end Text

namespace CallTree

/-- What is said of a node: its name and, when it is resolved, its first and its last line. -/
def Node.caption (n : Node) : Text × Option (UInt32 × UInt32) :=
  (n.name, n.record.map fun p => (p.record.startLine, p.record.endLine))

section Labels

def remark : Option (UInt32 × UInt32) → Text
  | some (start, stop) => utf8 " (lines " ++ Text.ofNat start.toNat ++ utf8 "-" ++
      Text.ofNat stop.toNat ++ utf8 ")"
  | none => utf8 " (unresolved)"

theorem Node.label_eq (n : Node) : n.label = n.caption.1 ++ remark n.caption.2 := by
  cases resolved : n.record <;> simp [Node.label, Node.caption, remark, resolved]

variable {name name' start start' stop stop' : Text} {b b' : UInt8}

/-- Digits at the end of a text reach back to the last byte that is none. -/
theorem last_digits_unique (digits : ∀ b ∈ stop, isDigitByte b = true)
    (digits' : ∀ b ∈ stop', isDigitByte b = true) (other : isDigitByte b = false)
    (other' : isDigitByte b' = false) (same : start ++ b :: stop = start' ++ b' :: stop') :
    start = start' ∧ stop = stop' := by
  have parted : (start ++ [b]) ++ stop = (start' ++ [b']) ++ stop' := by simpa using same
  obtain ⟨before, last⟩ :=
    last_run_unique digits digits' (by simp [other]) (by simp [other']) parted
  exact ⟨(List.append_inj' before rfl).1, last⟩

theorem remark_none : remark none = utf8 " (unresolve" ++ 100 :: utf8 ")" := rfl

theorem remark_some (start stop : UInt32) : remark (some (start, stop)) =
    utf8 " (lines" ++ 32 :: Text.ofNat start.toNat ++ 45 :: Text.ofNat stop.toNat ++ utf8 ")" := by
  have opening : utf8 " (lines " = utf8 " (lines" ++ [32] := rfl
  have dash : utf8 "-" = [45] := rfl
  simp [remark, opening, dash]

theorem digits_toNat (n : UInt32) : ∀ b ∈ Text.ofNat n.toNat, isDigitByte b = true :=
  (Text.decimal_ofNat n.toNat).digit

/-- Left of the closing bracket stand the digits of the last line, or the last letter of what an
unresolved node is called. -/
theorem remark_none_ne (span : UInt32 × UInt32) :
    name ++ remark none ≠ name' ++ remark (some span) := by
  obtain ⟨start, stop⟩ := span
  intro same
  have inner : (name ++ utf8 " (unresolve") ++ 100 :: [] =
      (name' ++ utf8 " (lines" ++ 32 :: Text.ofNat start.toNat) ++ 45 :: Text.ofNat stop.toNat := by
    apply (List.append_left_inj (utf8 ")")).mp
    simpa [remark_none, remark_some] using same
  obtain ⟨_, none⟩ := last_digits_unique (by simp) (digits_toNat stop) rfl rfl inner
  exact Text.ofNat_ne_nil _ none.symm

theorem remark_some_unique {span span' : UInt32 × UInt32}
    (same : name ++ remark (some span) = name' ++ remark (some span')) :
    name = name' ∧ span = span' := by
  obtain ⟨start, stop⟩ := span
  obtain ⟨start', stop'⟩ := span'
  have inner : (name ++ utf8 " (lines" ++ 32 :: Text.ofNat start.toNat) ++ 45 ::
    Text.ofNat stop.toNat =
      (name' ++ utf8 " (lines" ++ 32 :: Text.ofNat start'.toNat) ++ 45 ::
        Text.ofNat stop'.toNat := by
    apply (List.append_left_inj (utf8 ")")).mp
    simpa [remark_some] using same
  obtain ⟨before, last⟩ := last_digits_unique (digits_toNat stop) (digits_toNat stop') rfl rfl inner
  obtain ⟨called, first⟩ :=
    last_digits_unique (digits_toNat start) (digits_toNat start') rfl rfl before
  constructor
  · exact List.append_cancel_right called
  · rw [UInt32.toNat_inj.mp (Text.ofNat_injective first),
      UInt32.toNat_inj.mp (Text.ofNat_injective last)]

theorem newline_remark (span : Option (UInt32 × UInt32)) : Text.newline ∉ remark span := by
  cases span with
  | none => decide
  | some span =>
    obtain ⟨start, stop⟩ := span
    have number : ∀ n : UInt32, Text.newline ∉ Text.ofNat n.toNat := by
      intro n listed
      exact absurd (digits_toNat n _ listed) (by decide)
    have opening : Text.newline ∉ utf8 " (lines " := by decide
    have dash : Text.newline ∉ utf8 "-" := by decide
    have closing : Text.newline ∉ utf8 ")" := by decide
    simp [remark, number, opening, dash, closing]

theorem remark_unique {span span' : Option (UInt32 × UInt32)}
    (same : name ++ remark span = name' ++ remark span') :
    name = name' ∧ span = span' := by
  cases span with
  | none =>
    cases span' with
    | none => exact ⟨List.append_cancel_right same, rfl⟩
    | some span' => exact absurd same (remark_none_ne span')
  | some span =>
    cases span' with
    | none => exact absurd same.symm (remark_none_ne span)
    | some span' =>
      obtain ⟨called, spans⟩ := remark_some_unique same
      exact ⟨called, congrArg some spans⟩

theorem Node.label_unique {node node' : Node} (same : node.label = node'.label) :
    node.caption = node'.caption := by
  rw [Node.label_eq, Node.label_eq] at same
  obtain ⟨called, spans⟩ := remark_unique same
  exact Prod.ext called spans

end Labels

section Strokes

/-- A stroke left of a label, the last of them or one that only leads further down. -/
def stroke : Bool → Bool → Text
  | true, true => utf8 "└─ "
  | true, false => utf8 "├─ "
  | false, true => utf8 "   "
  | false, false => utf8 "│  "

/-- What stands left of a label. Down the way to the node, its own place included, every flag tells
whether a node is the last of its siblings. -/
def strokes : List Bool → Text
  | [] => []
  | last :: way => stroke way.isEmpty last ++ strokes way

variable {ends ends' last last' : Bool} {way way' : List Bool} {rest rest' : Text}

theorem strokes_concat (way : List Bool) (last : Bool) :
    strokes (way ++ [last]) = way.flatMap (stroke false) ++ stroke true last := by
  induction way with
  | nil => simp [strokes]
  | cons above way ih =>
    have further : (way ++ [last]).isEmpty = false := by simp
    rw [List.cons_append, strokes, further, ih, List.flatMap_cons, List.append_assoc]

theorem newline_strokes (way : List Bool) : Text.newline ∉ strokes way := by
  induction way with
  | nil => exact List.not_mem_nil
  | cons last way ih =>
    have plain : Text.newline ∉ stroke way.isEmpty last := by
      cases way.isEmpty <;> cases last <;> decide
    simp [strokes, plain, ih]

/-- No stroke starts with another. -/
theorem stroke_unique (same : stroke ends last ++ rest = stroke ends' last' ++ rest') :
    ends = ends' ∧ last = last' ∧ rest = rest' := by
  have down : stroke true true = [226, 148, 148, 226, 148, 128, 32] := rfl
  have aside : stroke true false = [226, 148, 156, 226, 148, 128, 32] := rfl
  have blank : stroke false true = [32, 32, 32] := rfl
  have upright : stroke false false = [226, 148, 130, 32, 32] := rfl
  revert same
  cases ends <;> cases last <;> cases ends' <;> cases last' <;> simp [down, aside, blank, upright]

theorem strokes_unique (below : way ≠ []) (below' : way' ≠ [])
    (same : strokes way ++ rest = strokes way' ++ rest') :
    way = way' ∧ rest = rest' := by
  induction way generalizing way' with
  | nil => contradiction
  | cons last way ih =>
    cases way' with
    | nil => contradiction
    | cons last' way' =>
      rw [strokes, strokes, List.append_assoc, List.append_assoc] at same
      obtain ⟨ends, rfl, further⟩ := stroke_unique same
      cases way with
      | nil =>
        obtain rfl := List.isEmpty_iff.mp ends.symm
        exact ⟨rfl, further⟩
      | cons next way =>
        have goes : way' ≠ [] := List.isEmpty_eq_false_iff.mp ends.symm
        obtain ⟨rfl, after⟩ := ih (List.cons_ne_nil next way) goes further
        exact ⟨rfl, after⟩

end Strokes

section Children
variable {α β : Type} {n : Node} {f g : Bool → Nat → List α}

/-- What the children add, each told whether it is the last. -/
def Node.spread (n : Node) (f : Bool → Nat → List α) : List α :=
  n.children.zipIdx.flatMap fun (c, k) => f (k + 1 == n.children.length) c

theorem Node.spread_congr (same : ∀ c ∈ n.children, ∀ last, f last c = g last c) :
    n.spread f = n.spread g := by
  apply List.flatMap_congr
  rintro ⟨c, k⟩ listed
  exact same c (List.fst_mem_of_mem_zipIdx listed) _

theorem Node.spread_flatMap (h : α → List β) :
    (n.spread f).flatMap h = n.spread (fun last c => (f last c).flatMap h) := List.flatMap_assoc

theorem Node.spread_map (h : α → β) :
    (n.spread f).map h = n.spread (fun last c => (f last c).map h) :=
  List.map_flatMap

theorem Node.spread_const (f : Nat → List α) : n.spread (fun _ => f) = n.children.flatMap f := by
  conv => rhs; rw [← List.zipIdx_map_fst 0 n.children, List.flatMap_map]
  rfl

theorem Node.mem_spread {x : α} (listed : x ∈ n.spread f) :
    ∃ c ∈ n.children, ∃ last, x ∈ f last c := by
  obtain ⟨⟨c, k⟩, child, here⟩ := List.mem_flatMap.mp listed
  exact ⟨c, List.fst_mem_of_mem_zipIdx child, _, here⟩

end Children

/-- A line of an outline, before it is drawn. -/
structure Row where
  way : List Bool
  node : Node

def Row.line (r : Row) : Text := strokes r.way ++ r.node.label

def rowsFrom (t : CallTree) (way : List Bool) (i : Nat) : List Row :=
  if inside : i < t.nodes.size then
    ⟨way, t.nodes[i]⟩ :: t.nodes[i].children.zipIdx.flatMap fun (c, k) =>
      if i < c then t.rowsFrom (way ++ [k + 1 == t.nodes[i].children.length]) c else []
  else []
termination_by t.nodes.size - i

def rows (t : CallTree) : List Row := t.rowsFrom [] 0

variable {index : FunctionIndex} {t : CallTree} {i : Nat} {node : Node} {margin : Text}
  {last : Bool} {way : List Bool} {row : Row}

theorem Sound.rowsFrom_node (sound : t.Sound index) (found : t.node? i = some node) :
    t.rowsFrom way i = ⟨way, node⟩ :: node.spread (fun last => t.rowsFrom (way ++ [last])) := by
  obtain ⟨inside, rfl⟩ := Array.getElem?_eq_some_iff.mp found
  rw [rowsFrom, dif_pos inside]
  congr 1
  apply Node.spread_congr (f := fun last c => if i < c then t.rowsFrom (way ++ [last]) c else [])
  intro c listed last
  exact if_pos (sound.listed_child found listed).1

theorem Sound.outlineFrom_node (sound : t.Sound index) (found : t.node? i = some node) :
    t.outlineFrom margin last i =
      (if node.depth = 0 then [] else margin ++ stroke true last) ++ node.label ++ [Text.newline] ++
      node.spread (t.outlineFrom (if node.depth = 0 then margin
        else margin ++ stroke false last)) := by
  obtain ⟨inside, rfl⟩ := Array.getElem?_eq_some_iff.mp found
  have ending : utf8 (if last then "└─ " else "├─ ") = stroke true last := by cases last <;> rfl
  have leading : utf8 (if last then "   " else "│  ") = stroke false last := by cases last <;> rfl
  rw [outlineFrom, dif_pos inside, ending, leading]
  dsimp only
  congr 1
  apply Node.spread_congr (f := fun last c => if i < c then t.outlineFrom _ last c else [])
  intro c listed last
  exact if_pos (sound.listed_child found listed).1

theorem Sound.rowsFrom_nodes (sound : t.Sound index) (found : t.node? i = some node) :
    (t.rowsFrom way i).map Row.node = t.nodesFrom i := by
  apply sound.descend (motive := fun i _ => ∀ way, (t.rowsFrom way i).map Row.node = t.nodesFrom i)
    _ found
  intro i node found ih way
  rw [sound.rowsFrom_node found, sound.nodesFrom_node found, List.map_cons,
    Node.spread_map, ← Node.spread_const]
  congr 1
  apply Node.spread_congr
  intro c listed last
  obtain ⟨_, child, here, _⟩ := sound.listed_child found listed
  exact ih c listed child here _

theorem Sound.length_way (sound : t.Sound index) (found : t.node? i = some node)
    (depth : way.length = node.depth) (listed : row ∈ t.rowsFrom way i) :
    row.way.length = row.node.depth := by
  refine sound.descend (motive := fun i node => ∀ way : List Bool, way.length = node.depth →
    row ∈ t.rowsFrom way i → row.way.length = row.node.depth) ?_ found way depth listed
  intro i node found ih way depth listed
  rw [sound.rowsFrom_node found, List.mem_cons] at listed
  rcases listed with rfl | further
  · exact depth
  · obtain ⟨c, listed, last, there⟩ := Node.mem_spread further
    obtain ⟨_, child, here, _, deeper⟩ := sound.listed_child found listed
    exact ih c listed child here _ (by simp [depth, deeper]) there

/-- Left of a node below the root stand the strokes of its way. -/
theorem Sound.outlineFrom_rows (sound : t.Sound index) (found : t.node? i = some node)
    (below : 0 < node.depth) :
    t.outlineFrom (way.flatMap (stroke false)) last i =
      (t.rowsFrom (way ++ [last]) i).flatMap (fun row => row.line ++ [Text.newline]) := by
  refine sound.descend (motive := fun i node => ∀ way last, 0 < node.depth →
    t.outlineFrom (way.flatMap (stroke false)) last i =
      (t.rowsFrom (way ++ [last]) i).flatMap (fun row => row.line ++ [Text.newline])) ?_ found way
        last below
  -- The induction is for all ways at once, since that of a child is longer by its own place.
  intro i node found ih way last below
  have deep := Nat.ne_of_gt below
  have inner : way.flatMap (stroke false) ++ stroke false last =
      (way ++ [last]).flatMap (stroke false) := by simp
  rw [sound.outlineFrom_node found, sound.rowsFrom_node found, if_neg deep, if_neg deep, inner,
    List.flatMap_cons,
    Node.spread_flatMap, Row.line, strokes_concat]
  congr 1
  apply Node.spread_congr
  intro c listed after
  obtain ⟨_, child, here, _, deeper⟩ := sound.listed_child found listed
  exact ih c listed child here (way ++ [last]) after (by omega)

theorem Sound.outline_rows (sound : t.Sound index) :
    t.outline = t.rows.flatMap (fun row => row.line ++ [Text.newline]) := by
  obtain ⟨root, top, shallow⟩ := sound.root
  rw [outline, rows, sound.outlineFrom_node top, sound.rowsFrom_node top, if_pos shallow,
    if_pos shallow,
    List.flatMap_cons, Node.spread_flatMap]
  congr 1
  apply Node.spread_congr
  intro c listed last
  obtain ⟨_, child, here, _, deeper⟩ := sound.listed_child top listed
  have margin : t.outlineFrom (([] : List Bool).flatMap (stroke false)) last c = _ :=
    sound.outlineFrom_rows here (by omega)
  exact margin

theorem Sound.rows_nodes (sound : t.Sound index) : t.rows.map Row.node = t.nodesFrom 0 := by
  obtain ⟨root, top, _⟩ := sound.root
  exact sound.rowsFrom_nodes top

/-- Only the root stands without strokes. -/
theorem Sound.rows_root (sound : t.Sound index) :
    ∃ root others, t.rows = ⟨[], root⟩ :: others ∧ ∀ row ∈ others, row.way ≠ [] := by
  obtain ⟨root, top, shallow⟩ := sound.root
  refine ⟨root, _, sound.rowsFrom_node top, ?_⟩
  intro row listed
  obtain ⟨c, child, last, there⟩ := Node.mem_spread listed
  obtain ⟨_, child, here, _, deeper⟩ := sound.listed_child top child
  have read : row.node ∈ t.nodesFrom c := by
    rw [← sound.rowsFrom_nodes here]
    exact List.mem_map_of_mem there
  have below := sound.nodesFrom_depth here read
  have long := sound.length_way here (by simp [deeper, shallow]) there
  apply List.ne_nil_of_length_pos
  omega

theorem Sound.line_plain (sound : t.Sound index)
    (plain : ∀ node ∈ t.nodes, Text.newline ∉ node.name) (listed : row ∈ t.rows) :
    Text.newline ∉ row.line := by
  have read : row.node ∈ t.nodesFrom 0 := by
    rw [← sound.rows_nodes]
    exact List.mem_map_of_mem listed
  obtain ⟨i, _, found⟩ := List.mem_filterMap.mp read
  have name := plain row.node (Array.mem_of_getElem? found)
  rw [Row.line, Node.label_eq]
  simp [newline_strokes, newline_remark, name, Node.caption]

/-- What can be read back from a line. -/
def Row.mark (r : Row) : List Bool × Text × Option (UInt32 × UInt32) := (r.way, r.node.caption)

theorem Sound.marks_depths (sound : t.Sound index) :
    (t.rows.map Row.mark).map (fun mark => mark.1.length) = t.shape.depths 0 := by
  obtain ⟨root, top, shallow⟩ := sound.root
  have depth : ([] : List Bool).length = root.depth := shallow.symm
  rw [sound.depths_shape, ← sound.rows_nodes, List.map_map, List.map_map]
  exact List.map_congr_left (fun row listed => sound.length_way top depth listed)

theorem Sound.marks_captions (sound : t.Sound index) :
    (t.rows.map Row.mark).map Prod.snd = (t.nodesFrom 0).map Node.caption := by
  rw [← sound.rows_nodes, List.map_map, List.map_map]
  rfl

theorem marks_unique {rows rows' : List Row} (below : ∀ row ∈ rows, row.way ≠ [])
    (below' : ∀ row ∈ rows', row.way ≠ []) (same : rows.map Row.line = rows'.map Row.line) :
    rows.map Row.mark = rows'.map Row.mark := by
  induction rows generalizing rows' with
  | nil => rw [List.map_eq_nil_iff.mp same.symm]
  | cons row rows ih =>
    cases rows' with
    | nil => contradiction
    | cons row' rows' =>
      rw [List.forall_mem_cons] at below below'
      obtain ⟨line, lines⟩ := List.cons.inj same
      obtain ⟨way, label⟩ := strokes_unique below.1 below'.1 line
      rw [List.map_cons, List.map_cons, ih below.2 below'.2 lines, Row.mark, way,
        Node.label_unique label]
      rfl

variable {index' : FunctionIndex} {t' : CallTree}

theorem Sound.outline_marks (sound : t.Sound index) (sound' : t'.Sound index')
    (plain : ∀ node ∈ t.nodes, Text.newline ∉ node.name)
    (plain' : ∀ node ∈ t'.nodes, Text.newline ∉ node.name) (same : t.outline = t'.outline) :
    t.rows.map Row.mark = t'.rows.map Row.mark := by
  have lines : t.rows.map Row.line = t'.rows.map Row.line := by
    apply Text.lines_unique
    · exact List.forall_mem_map.mpr (fun row listed => sound.line_plain plain listed)
    · exact List.forall_mem_map.mpr (fun row listed => sound'.line_plain plain' listed)
    · rw [List.flatMap_map, List.flatMap_map, ← sound.outline_rows, ← sound'.outline_rows, same]
  obtain ⟨root, others, rows, below⟩ := sound.rows_root
  obtain ⟨root', others', rows', below'⟩ := sound'.rows_root
  rw [rows, rows'] at lines ⊢
  obtain ⟨top, rest⟩ := List.cons.inj lines
  have label : root.caption = root'.caption := Node.label_unique top
  rw [List.map_cons, List.map_cons, marks_unique below below' rest, Row.mark, label]
  rfl

end CallTree

namespace TreeBuilder

/-- An outline has one line for each node, and from it the shape of the tree can be read and, node
by node, the name, whether there is a record, and its lines. -/
theorem outline_faithful (b c : TreeBuilder) (built : b.graph.Built) (built' : c.graph.Built)
    (root root' : Text) (direction direction' : Direction) (excluded excluded' : List Text)
    {first second : CallTree} (made : (b.build root direction excluded).1 = some first)
    (made' : (c.build root' direction' excluded').1 = some second)
    (plain : ∀ node ∈ first.nodes, Text.newline ∉ node.name)
    (plain' : ∀ node ∈ second.nodes, Text.newline ∉ node.name) :
    (∃ lines : List Text, first.outline = lines.flatMap (· ++ [Text.newline]) ∧
      lines.length = first.size ∧
      (∀ line ∈ lines, Text.newline ∉ line) ∧
      List.Forall₂ (fun line node => node.label <:+ line) lines (first.nodesFrom 0)) ∧
    (first.outline = second.outline → first.shape = second.shape ∧
      (first.nodesFrom 0).map CallTree.Node.caption =
        (second.nodesFrom 0).map CallTree.Node.caption) := by
  have sound := build_sound built made
  have sound' := build_sound built' made'
  constructor
  · refine ⟨first.rows.map CallTree.Row.line, ?_, ?_, ?_, ?_⟩
    · rw [List.flatMap_map]
      exact sound.outline_rows
    · rw [List.length_map, ← List.length_map (f := CallTree.Row.node), sound.rows_nodes]
      exact sound.nodesFrom_perm.length_eq
    · exact List.forall_mem_map.mpr (fun row listed => sound.line_plain plain listed)
    · rw [← sound.rows_nodes, List.forall₂_map_left_iff, List.forall₂_map_right_iff]
      exact List.forall₂_same.mpr (fun row _ => List.suffix_append _ _)
  · intro same
    have marks := sound.outline_marks sound' plain plain' same
    constructor
    · apply CallTree.Shape.depths_inj
      rw [← sound.marks_depths, ← sound'.marks_depths, marks]
    · rw [← sound.marks_captions, ← sound'.marks_captions, marks]

/-- One of the names looks like a line, another like a name without a record. -/
def ledger : CallGraph :=
  ((({} : CallGraph).addCall (utf8 "post") (utf8 "├─ sum")).addCall (utf8 "├─ sum")
    (utf8 "add")).addCall
    (utf8 "post") (utf8 "note (unresolved)")

def entries (content : Text) : FunctionIndex :=
  { records := [{ name := utf8 "post", content, startLine := 3, endLine := 12 },
      { name := utf8 "note (unresolved)", content, startLine := 14, endLine := 14 }] }

def drawn : Text :=
  utf8 "post (lines 3-12)\n├─ note (unresolved) (lines 14-14)\n└─ ├─ sum (unresolved)\n   └─ add (unresolved)\n"

/-- The trees of one program, with the bodies of its functions and without. -/
theorem outline_faithful_ledger : ∃ first second,
    (build ⟨ledger, entries (utf8 "body"), 0⟩ (utf8 "post") .downstream []).1 = some first ∧
    (build ⟨ledger, entries [], 9⟩ (utf8 "post") .downstream [utf8 "burn"]).1 = some second ∧
    first ≠ second ∧ first.outline = drawn ∧ first.shape = second.shape ∧
    (first.nodesFrom 0).map CallTree.Node.caption =
      (second.nodesFrom 0).map CallTree.Node.caption := by
  have seen : (build ⟨ledger, entries (utf8 "body"), 0⟩ (utf8 "post") .downstream []).1.map
    (fun tree =>
      (tree.outline, decide (∀ node ∈ tree.nodes.toList, Text.newline ∉ node.name),
        tree.nodes.toList.map fun node => node.record.map fun p => p.record.content)) =
      some (drawn, true, [some (utf8 "body"), some (utf8 "body"), none, none]) := by cbv
  have seen' : (build ⟨ledger, entries [], 9⟩ (utf8 "post") .downstream [utf8 "burn"]).1.map
    (fun tree =>
      (tree.outline, decide (∀ node ∈ tree.nodes.toList, Text.newline ∉ node.name),
        tree.nodes.toList.map fun node => node.record.map fun p => p.record.content)) =
      some (drawn, true, [some [], some [], none, none]) := by cbv
  obtain ⟨first, made, same⟩ := Option.map_eq_some_iff.mp seen
  obtain ⟨second, made', same'⟩ := Option.map_eq_some_iff.mp seen'
  simp only [Prod.mk.injEq, decide_eq_true_eq, Array.mem_toList_iff] at same same'
  obtain ⟨outline, plain, bodies⟩ := same
  obtain ⟨outline', plain', bodies'⟩ := same'
  have built : ledger.Built := .addCall _ _ (.addCall _ _ (.addCall _ _ .empty))
  obtain ⟨_, reads⟩ := outline_faithful ⟨ledger, entries (utf8 "body"), 0⟩ ⟨ledger, entries [], 9⟩
    built built
    (utf8 "post") (utf8 "post") .downstream .downstream [] [utf8 "burn"] made made' plain plain'
  refine ⟨first, second, made, made', ?_, outline, reads (outline.trans outline'.symm)⟩
  rintro rfl
  have different : [some (utf8 "body"), some (utf8 "body"), none, none] ≠
      [some [], some [], none, none] := by decide
  exact different (bodies.symm.trans bodies')

end TreeBuilder
end CodeAudit
