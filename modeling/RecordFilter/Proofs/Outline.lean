import RecordFilter.Predicate.Outline
import RecordFilter.Proofs.Json.Compact
import RecordFilter.Proofs.Text.Lines

/-!
# Outlines, line by line

The outline of a tree has a line for every node, from which the level and the class of the node can
be read back.  Names and texts of the tree stand in it as they are, so this is so exactly for the
trees without a newline in a name or a text.

    readLine? (p.line level) = some (level, p.kind)                                  (readLine?_line)
    (p.outline k).toList = ended ((p.nodes 0).map fun n => n.2.line (k + n.1))   (outline_eq_ended)
-/

namespace RecordFilter

namespace Predicate

/-! ## Lines of nodes -/

/-- What stands in the line of a node. -/
def line (level : Nat) : Predicate → List Char
  | list _ => List.replicate (2 * level) ' ' ++ PredicateKind.operandList.name.toList
  | p => List.replicate (2 * level) ' ' ++ p.kind.name.toList ++ ':' :: ' ' :: p.value.toList

/-- The name or the text that a leaf brings along as it is. -/
def caption : Predicate → String
  | field name => name
  | var raw => raw
  | string s => s
  | _ => ""

/-- No name and no text in the tree goes over several lines. -/
def SingleLine (p : Predicate) : Prop := ∀ n ∈ p.nodes 0, '\n' ∉ n.2.caption.toList

variable {p : Predicate} {ps : List Predicate}

theorem outlineLine_toList (level : Nat) (p : Predicate) :
    (outlineLine level p).toList = p.line level ++ ['\n'] := by
  unfold outlineLine line
  cases p <;> simp [kind, List.append_assoc]

/-! ## Nodes -/

mutual

/-- Nodes of a tree that starts further in are further in. -/
theorem nodes_add (k level : Nat) :
    ∀ p : Predicate, p.nodes (k + level) = (p.nodes level).map fun n => (k + n.1, n.2)
  | list items => by
    rw [nodes, nodes, List.map_cons, Nat.add_assoc, nodesAll_add k (level + 1) items]
  | compare _ left right | isIn left right | join _ left right | spatial _ left right => by
    rw [nodes, nodes, List.map_cons, List.map_append, Nat.add_assoc, nodes_add k (level + 1) left,
      nodes_add k (level + 1) right]
  | not inner => by
    rw [nodes, nodes, List.map_cons, Nat.add_assoc, nodes_add k (level + 1) inner]
  | field _ | var _ | string _ | integer _ | float _ | boolean _ | null | geometry _ => rfl

theorem nodesAll_add (k level : Nat) : ∀ ps : List Predicate,
    nodesAll (k + level) ps = (nodesAll level ps).map fun n => (k + n.1, n.2)
  | [] => rfl
  | p :: ps => by
    rw [nodesAll, nodesAll, List.map_append, nodes_add k level p, nodesAll_add k level ps]

end

mutual

theorem length_nodes (level : Nat) : ∀ p : Predicate, (p.nodes level).length = p.size
  | list items => by rw [nodes, size, List.length_cons, length_nodesAll (level + 1) items]
  | compare _ left right | isIn left right | join _ left right | spatial _ left right => by
    rw [nodes, size, List.length_cons, List.length_append, length_nodes (level + 1) left,
      length_nodes (level + 1) right]
  | not inner => by rw [nodes, size, List.length_cons, length_nodes (level + 1) inner]
  | field _ | var _ | string _ | integer _ | float _ | boolean _ | null | geometry _ => rfl

theorem length_nodesAll (level : Nat) :
    ∀ ps : List Predicate, (nodesAll level ps).length = sizeAll ps
  | [] => rfl
  | p :: ps => by
    rw [nodesAll, sizeAll, List.length_append, length_nodes level p, length_nodesAll level ps]

end

/-- The outline is the lines of the nodes one after the other. -/
theorem outline_eq_ended (p : Predicate) (k : Nat) :
    (p.outline k).toList = ended ((p.nodes 0).map fun n => n.2.line (k + n.1)) := by
  have hnodes := nodes_add k 0 p
  rw [Nat.add_zero] at hnodes
  rw [outline, String.toList_join, ended, hnodes, List.map_map, List.flatMap_map, List.flatMap_map]
  exact List.flatMap_congr fun n _ => outlineLine_toList (k + n.1) n.2

/-! ## Newlines in lines -/

/-- Only names and texts bring newlines into a value. -/
theorem newline_mem_value_iff : '\n' ∈ p.value.toList ↔ '\n' ∈ p.caption.toList := by
  have hno : '\n' ∉ ("" : String).toList := by decide
  have hcompare : ∀ op : CompareOp, '\n' ∉ op.symbol.toList := by
    intro op
    cases op <;> decide
  have hjoin : ∀ op : JoinOp, '\n' ∉ op.symbol.toList := by
    intro op
    cases op <;> decide
  cases p with
  | field | var | string => exact Iff.rfl
  | integer n => exact iff_of_false (newline_notMem_int n.toInt) hno
  | float x => exact iff_of_false (newline_notMem_plain x) hno
  | boolean b => exact iff_of_false (by cases b <;> decide) hno
  | null => exact iff_of_false (by decide) hno
  | geometry payload => exact iff_of_false payload.newline_notMem_compact hno
  | list => exact Iff.rfl
  | compare op => exact iff_of_false (hcompare op) hno
  | isIn => exact iff_of_false (by decide : '\n' ∉ "in".toList) hno
  | not => exact iff_of_false (by decide : '\n' ∉ "not".toList) hno
  | join op => exact iff_of_false (hjoin op) hno
  | spatial op => exact iff_of_false (by cases op; decide : '\n' ∉ op.name.toList) hno

theorem newline_mem_line_iff (level : Nat) : '\n' ∈ p.line level ↔ '\n' ∈ p.caption.toList := by
  have hblanks : '\n' ∉ List.replicate (2 * level) ' ' := by
    intro h
    exact absurd (List.eq_of_mem_replicate h) (by decide)
  have hname : ∀ c : PredicateKind, '\n' ∉ c.name.toList := by
    intro c
    cases c <;> decide
  rw [← newline_mem_value_iff]
  unfold line
  split
  · simp [hblanks, hname, value]
  · simp [hblanks, hname]

theorem newline_notMem_lines_iff (p : Predicate) (k : Nat) :
    (∀ l ∈ (p.nodes 0).map fun n => n.2.line (k + n.1), '\n' ∉ l) ↔ p.SingleLine := by
  rw [List.forall_mem_map]
  exact forall₂_congr fun n _ => not_congr (newline_mem_line_iff _)

/-! ## Reading lines back -/

/-- The class of a name. -/
def kindOfName? (name : List Char) : Option PredicateKind :=
  [.field, .var, .stringConstant, .numberConstant, .booleanConstant, .namedConstant, .geometry,
    .operandList, .comparison, .function, .unary, .join, .spatial].find? fun kind =>
      kind.name.toList = name

/-- The level and the class of a line: two blanks a level, and the name of the class up to a colon. -/
def readLine? (l : List Char) : Option (Nat × PredicateKind) :=
  (kindOfName? ((l.dropWhile (· = ' ')).takeWhile (· ≠ ':'))).map
    fun kind => ((l.takeWhile (· = ' ')).length / 2, kind)

theorem kindOfName?_name (kind : PredicateKind) : kindOfName? kind.name.toList = some kind := by
  cases kind <;> decide

/-- The blanks in front and what stands behind the colon do not matter. -/
theorem readLine?_name (level : Nat) (kind : PredicateKind) (tail : List Char)
    (ht : tail.takeWhile (· ≠ ':') = []) :
    readLine? (List.replicate (2 * level) ' ' ++ (kind.name.toList ++ tail)) =
      some (level, kind) := by
  have hblanks : ∀ c ∈ List.replicate (2 * level) ' ', decide (c = ' ') = true := by
    intro c hc
    rw [List.eq_of_mem_replicate hc]
    rfl
  have hname : ∀ c ∈ kind.name.toList, decide (c ≠ ':') = true :=
    List.all_eq_true.mp (by cases kind <;> rfl)
  have htake : (kind.name.toList ++ tail).takeWhile (· = ' ') = [] := by
    cases kind <;> rfl
  have hdrop : (kind.name.toList ++ tail).dropWhile (· = ' ') = kind.name.toList ++ tail := by
    cases kind <;> rfl
  rw [readLine?, List.takeWhile_append_of_pos hblanks, List.dropWhile_append_of_pos hblanks, htake,
    hdrop, List.takeWhile_append_of_pos hname, ht, List.append_nil, List.append_nil,
    kindOfName?_name, List.length_replicate, Option.map_some, Nat.mul_div_cancel_left _ Nat.two_pos]

theorem readLine?_line (level : Nat) (p : Predicate) :
    readLine? (p.line level) = some (level, p.kind) := by
  unfold line
  split
  · have hread := readLine?_name level .operandList [] rfl
    rwa [List.append_nil] at hread
  · rw [List.append_assoc]
    exact readLine?_name level _ _ rfl

/-! ## Outlines -/

/-- **Outlines have a line for every node.**  The outline of a tree is as many lines, each ended by a
newline, as the tree has nodes, exactly if no name and no text of the tree has a newline in it.
Exactly then, too, these are the lines of the nodes in their order, and the levels and the classes of
the nodes are read back from them. -/
theorem lines_outline (p : Predicate) (k : Nat) :
    (p.nodes 0).length = p.size ∧
    ((∃ ls, lines? (p.outline k).toList = some ls ∧ ls.length = p.size) ↔ p.SingleLine) ∧
    (lines? (p.outline k).toList = some ((p.nodes 0).map fun n => n.2.line (k + n.1)) ↔
      p.SingleLine) ∧
    ((lines? (p.outline k).toList).map (List.map readLine?) =
      some ((p.nodes 0).map fun n => some (k + n.1, n.2.kind)) ↔ p.SingleLine) := by
  have hlength := length_nodes 0 p
  have hcount : ∀ ls, lines? (p.outline k).toList = some ls → ls.length = p.size → p.SingleLine := by
    intro ls hls hsize
    have hnewlines := length_of_lines? hls
    rw [outline_eq_ended, hsize, ← hlength, ← List.length_map (fun n => n.2.line (k + n.1))] at hnewlines
    exact (newline_notMem_lines_iff p k).1 (length_eq_count_iff.1 hnewlines)
  have hlines : p.SingleLine →
      lines? (p.outline k).toList = some ((p.nodes 0).map fun n => n.2.line (k + n.1)) := by
    intro h
    exact lines?_eq_some_iff.2 ⟨outline_eq_ended p k, (newline_notMem_lines_iff p k).2 h⟩
  refine ⟨hlength, ⟨?_, ?_⟩, ⟨?_, hlines⟩, ?_, ?_⟩
  · rintro ⟨ls, hls, hsize⟩
    exact hcount ls hls hsize
  · exact fun h => ⟨_, hlines h, by rw [List.length_map, hlength]⟩
  · intro hls
    exact hcount _ hls (by rw [List.length_map, hlength])
  · intro hread
    obtain ⟨ls, hls, hkinds⟩ := Option.map_eq_some_iff.1 hread
    refine hcount ls hls ?_
    rw [← hlength, ← List.length_map readLine?, hkinds, List.length_map]
  · intro h
    rw [hlines h, Option.map_some, List.map_map]
    exact congrArg some (List.map_congr_left fun n _ => readLine?_line (k + n.1) n.2)

example : ¬SingleLine (.compare .equal (.field "a") (.string "x\ny")) := by
  unfold SingleLine
  decide

end Predicate

end RecordFilter
