import RecordFilter.Proofs.Printing
import RecordFilter.Proofs.Sql.Values

/-!
# What a database decides

The truth value that a database gives to the condition of a predicate, in terms of
the values that the predicate compares.  It is the truth value of the generated
condition for a row that holds the properties of the record, in either dialect.

    g.generate p = .ok (c, .empty) and
      (c.search d).truth row = p.selection d g.session record             (exists_generate)
-/

namespace RecordFilter

namespace Predicate

/-! ## Values of operands -/

def isField : Predicate → Bool
  | field _ => true
  | _ => false

/-- The value of an operand. -/
def operandValue (session : Variables) (record : Record) : Predicate → Value
  | field name => record.property name
  | var raw => resolveVariable raw session
  | string s => .string s
  | integer n => .integer n
  | float x => .float x
  | boolean b => .boolean b
  | _ => .null

/-- The values that an entry of a list stands for: the items of an array, if it is a variable that
holds one. -/
def entryValues (session : Variables) (record : Record) (p : Predicate) : List Value :=
  match p, p.operandValue session record with
  | var _, .array vs => vs
  | _, v => [v]

/-- The values of the columns in a list. -/
def columnValues (session : Variables) (record : Record) (items : List Predicate) : List Value :=
  (items.filter isField).flatMap (entryValues session record)

/-- The values of the constants and variables in a list. -/
def constantValues (session : Variables) (record : Record) (items : List Predicate) : List Value :=
  (items.filter fun item => !item.isField).flatMap (entryValues session record)

/-- The values that a list is compared with one by one: those of columns, and constants that are not
blank. -/
def listedValues (session : Variables) (record : Record) (items : List Predicate) : List Value :=
  items.flatMap fun item =>
    (item.entryValues session record).filter fun w => item.isField || !w.isBlank

/-- Whether a condition can hold the value of an operand. -/
def IsPlain (session : Variables) (record : Record) (p : Predicate) : Prop :=
  (p.operandValue session record).IsScalar ∧
    (p.isField = true → (p.operandValue session record).IsStored)

/-- Whether a condition can hold the values of an entry. -/
def IsPlainEntry (session : Variables) (record : Record) (p : Predicate) : Prop :=
  (∀ v ∈ p.entryValues session record, v.IsScalar) ∧
    (p.isField = true → (p.operandValue session record).IsStored)

/-! ## Decisions -/

/-- A comparison; where its right side is no column and void, `=` and `<>` ask for a missing value. -/
def comparisonTruth (d : Dialect) (op : CompareOp) (v w : Value) (column : Bool) : Option Bool :=
  if !column && w.isVoid then
    match op with
    | .equal => some v.isVoid
    | .notEqual => some !v.isVoid
    | _ => none
  else (Sql.image d v).relate (op.relation?.getD .equal) (Sql.image d w)

/-- A membership; blank entries ask for a missing or an empty value. -/
def membershipTruth (d : Dialect) (v : Value) (listed : List Value) (blank : Bool) : Option Bool :=
  let inList := Sql.Truth.any (listed.map fun w => (Sql.image d v).relate .equal (Sql.image d w))
  if blank then Sql.Truth.or (some (v.isVoid || v.isBlank)) inList else inList

/-- What a database decides of a predicate. -/
def selection (d : Dialect) (session : Variables) (record : Record) : Predicate → Option Bool
  | boolean b => some b
  | compare op left right =>
    comparisonTruth d op (left.operandValue session record) (right.operandValue session record)
      right.isField
  | isIn left (list items) =>
    membershipTruth d (left.operandValue session record) (listedValues session record items)
      ((constantValues session record items).any Value.isBlank)
  | not inner => Sql.Truth.not (inner.selection d session record)
  | join .and left right =>
    Sql.Truth.and (left.selection d session record) (right.selection d session record)
  | join .or left right =>
    Sql.Truth.or (left.selection d session record) (right.selection d session record)
  | _ => none

/-- The predicates that compare values of one type, or a value with a missing one; in lists texts may
stand beside other values.  Columns hold texts, whole numbers or nothing. -/
def Comparable (session : Variables) (record : Record) : Predicate → Prop
  | boolean _ => True
  | compare op left right =>
    op.relation?.isSome = true ∧ left.IsPlain session record ∧ right.IsPlain session record ∧
      (left.operandValue session record = .null ∨ right.operandValue session record = .null ∨
        SameType (left.operandValue session record) (right.operandValue session record))
  | isIn left (list items) =>
    left.IsPlain session record ∧ ∀ item ∈ items, item.IsPlainEntry session record ∧
      ∀ w ∈ item.entryValues session record, Listable (left.operandValue session record) w
  | not inner => inner.Comparable session record
  | join _ left right => left.Comparable session record ∧ right.Comparable session record
  | _ => False

end Predicate

/-! ## Terms -/

namespace Generator

variable {g : Generator} {record : Record} {row : Sql.Row} {p : Predicate}

theorem literal?_isSome {v : Value} (h : v.IsScalar) :
    ∃ t, literal? v = some t ∧ t.Plain ∧ (t = .null ↔ v.isVoid = true) ∧
      ∀ d row, (t.operand d).datum row = Sql.image d v := by
  cases v with
  | null => exact ⟨.null, rfl, trivial, iff_of_true rfl rfl, fun _ _ => rfl⟩
  | boolean b =>
    refine ⟨.boolean b, rfl, trivial, iff_of_false nofun Bool.false_ne_true, fun d _ => ?_⟩
    cases d <;> rfl
  | integer n =>
    exact ⟨.integer n, rfl, trivial, iff_of_false nofun Bool.false_ne_true, fun _ _ => rfl⟩
  | float x =>
    cases x with
    | finite negative m =>
      exact ⟨.number negative m, rfl, trivial, iff_of_false nofun Bool.false_ne_true,
        fun _ _ => rfl⟩
    | _ => exact ⟨.null, rfl, trivial, iff_of_true rfl rfl, fun _ _ => rfl⟩
  | string s =>
    exact ⟨.string s, rfl, trivial, iff_of_false nofun Bool.false_ne_true, fun _ _ => rfl⟩
  | _ => exact absurd h id

theorem literal_eq_ok {v : Value} (h : v.IsScalar) (origin : Predicate) :
    ∃ t, literal origin v = .ok t ∧ t.Plain ∧ (t = .null ↔ v.isVoid = true) ∧
      ∀ d row, (t.operand d).datum row = Sql.image d v := by
  obtain ⟨t, ht, hp, hn, hd⟩ := literal?_isSome h
  exact ⟨t, by rw [literal, ht], hp, hn, hd⟩

/-- Whether a row holds the properties of a record, each in the column that its field is mapped to. -/
def MapsTo (g : Generator) (record : Record) (row : Sql.Row) : Prop :=
  ∀ name, ∃ target, g.column name = .column target none ∧
    row target = .ofValue (record.property name)

theorem mapsTo_rowOf (hg : g.fieldMap = Table.empty) (record : Record) :
    g.MapsTo record (Sql.rowOf record) := by
  intro name
  refine ⟨name, ?_, rfl⟩
  rw [column, hg, Table.get?_empty]

theorem datum_column (d : Dialect) (name : String) (row : Sql.Row) :
    ((Term.column name none).operand d).datum row = row name := by
  show row _ = _
  rw [Sql.intercalate_splitParts, String.ofList_toList]

theorem term_eq_literal (record : Record) (h : p.IsOperand) (hf : p.isField = false) :
    g.term p = literal p (p.operandValue g.session record) := by
  cases p with
  | field => cases hf
  | var | string | integer | float | boolean | null => rfl
  | _ => exact absurd h id

/-- An operand becomes a term that has its value; it is `NULL` where a constant is void. -/
theorem term_eq_ok (hg : g.MapsTo record row) (h : p.IsOperand)
    (hp : p.IsPlain g.session record) :
    ∃ t, g.term p = .ok t ∧ t.Plain ∧
      (t = .null ↔ p.isField = false ∧ (p.operandValue g.session record).isVoid = true) ∧
      ∀ d, (t.operand d).datum row = Sql.image d (p.operandValue g.session record) := by
  cases hf : p.isField with
  | true =>
    cases p with
    | field name =>
      obtain ⟨target, ht, hrow⟩ := hg name
      refine ⟨.column target none, ?_, rfl, by simp, fun d => ?_⟩
      · rw [term, ht]
      · rw [datum_column, hrow, Sql.image_of_isStored (hp.2 rfl)]
        rfl
    | _ => cases hf
  | false =>
    obtain ⟨t, ht, hpl, hn, hd⟩ := literal_eq_ok hp.1 p
    refine ⟨t, ?_, hpl, by rw [hn]; simp, fun d => hd d _⟩
    rw [term_eq_literal record h hf, ht]

/-! ## Comparisons -/

variable {d : Dialect}

/-- A comparison with a constant that is void asks whether the left value is. -/
theorem exists_comparison_null {op : CompareOp} (ho : op.relation?.isSome = true)
    {left right : Predicate} {l : Term} {v w : Value} (hv : v.IsScalar)
    (hlt : g.term left = .ok l) (hrt : g.term right = .ok .null) (hlp : l.Plain)
    (hld : (l.operand d).datum row = Sql.image d v) (hw : w.isVoid = true) :
    ∃ c, g.comparison op left right = .ok c ∧ c.Plain ∧
      (c.search d).truth row = Predicate.comparisonTruth d op v w false := by
  have hnull : ((l.operand d).datum row == .null) = v.isVoid := by
    rw [hld, Bool.eq_iff_iff, beq_iff_eq, Sql.image_eq_null_iff hv]
  unfold Predicate.comparisonTruth
  rw [hw]
  cases op with
  | equal =>
    refine ⟨.missing l, comparison_of_terms hlt hrt, hlp, ?_⟩
    show some ((l.operand d).datum row == .null) = some v.isVoid
    rw [hnull]
  | notEqual =>
    refine ⟨.present l, comparison_of_terms hlt hrt, hlp, ?_⟩
    show some (!((l.operand d).datum row == .null)) = some !v.isVoid
    rw [hnull]
  | like | ilike => cases ho
  | less | lessEqual | greater | greaterEqual =>
    refine ⟨.compare _ l .null, comparison_of_terms hlt hrt, ⟨ho, hlp, trivial⟩, ?_⟩
    show ((l.operand d).datum row).relate _ .null = none
    rw [Sql.relate_null_right]

/-- A generated comparison decides what the values decide. -/
theorem exists_comparison (hg : g.MapsTo record row) {op : CompareOp}
    (ho : op.relation?.isSome = true) {left right : Predicate} (hl : left.IsOperand)
    (hr : right.IsOperand) (hlp : left.IsPlain g.session record)
    (hrp : right.IsPlain g.session record) :
    ∃ c, g.comparison op left right = .ok c ∧ c.Plain ∧
      (c.search d).truth row =
        Predicate.comparisonTruth d op (left.operandValue g.session record)
          (right.operandValue g.session record) right.isField := by
  obtain ⟨l, hlt, hlpl, -, hld⟩ := term_eq_ok hg hl hlp
  obtain ⟨r, hrt, hrpl, hrn, hrd⟩ := term_eq_ok hg hr hrp
  by_cases hn : r = .null
  · obtain ⟨hf, hw⟩ := hrn.1 hn
    subst hn
    rw [hf]
    exact exists_comparison_null ho hlp.1 hlt hrt hlpl (hld d) hw
  · have hv : (!right.isField && (right.operandValue g.session record).isVoid) = false := by
      rw [Bool.eq_false_iff]
      intro h
      rw [Bool.and_eq_true, Bool.not_eq_true'] at h
      exact hn (hrn.2 h)
    refine ⟨.compare op l r, ?_, ⟨ho, hlpl, hrpl⟩, ?_⟩
    · rw [comparison_of_terms hlt hrt, compared_of_ne_null hn]
    · show ((l.operand d).datum row).relate (op.relation?.getD .equal)
        ((r.operand d).datum row) = _
      rw [hld, hrd]
      unfold Predicate.comparisonTruth
      rw [hv]
      rfl

/-! ## Memberships -/

theorem literals_eq_ok (origin : Predicate) {vs : List Value} (h : ∀ v ∈ vs, v.IsScalar) :
    ∃ ts, literals origin vs = .ok (ts, vs.any Value.isBlank) ∧ (∀ t ∈ ts, t.Plain) ∧
      ∀ d row, ts.map (fun t => (t.operand d).datum row) =
        (vs.filter fun v => !v.isBlank).map (Sql.image d) := by
  induction vs with
  | nil => exact ⟨[], rfl, by simp, fun _ _ => rfl⟩
  | cons v vs ih =>
    obtain ⟨hv, hvs⟩ := List.forall_mem_cons.1 h
    obtain ⟨ts, hts, hp, hd⟩ := ih hvs
    cases hb : v.isBlank with
    | true =>
      refine ⟨ts, ?_, hp, fun d row => ?_⟩
      · simp only [literals, hb, if_true, hts, List.any_cons, Bool.true_or]
        rfl
      · rw [hd, List.filter_cons_of_neg (by simp [hb])]
    | false =>
      obtain ⟨t, ht, htp, -, htd⟩ := literal_eq_ok hv origin
      refine ⟨t :: ts, ?_, List.forall_mem_cons.2 ⟨htp, hp⟩, fun d row => ?_⟩
      · simp only [literals, hb, Bool.false_eq_true, if_false, ht, hts, List.any_cons, Bool.false_or]
        rfl
      · rw [List.map_cons, htd, hd, List.filter_cons_of_pos (by simp [hb]), List.map_cons]

theorem entryValues_of_isField (hf : p.isField = true) (session : Variables) :
    p.entryValues session record = [p.operandValue session record] := by
  cases p with
  | field name => rfl
  | _ => cases hf

theorem entryValues_eq (record : Record) (h : p.IsOperand) (hf : p.isField = false) :
    g.entryValues p = .ok (p.entryValues g.session record) := by
  cases p with
  | field => cases hf
  | var raw =>
    simp only [entryValues, valueOf?, Predicate.entryValues, Predicate.operandValue]
    cases resolveVariable raw g.session <;> rfl
  | string | integer | float | boolean | null => rfl
  | _ => exact absurd h id

/-- The terms of an entry have the values that are compared with one by one. -/
theorem entry_eq_ok (hg : g.MapsTo record row) (h : p.IsOperand)
    (hp : p.IsPlainEntry g.session record) :
    ∃ ts, g.entry p = .ok (ts, !p.isField && (p.entryValues g.session record).any Value.isBlank) ∧
      (∀ t ∈ ts, t.Plain) ∧ ∀ d, ts.map (fun t => (t.operand d).datum row) =
        ((p.entryValues g.session record).filter fun w => p.isField || !w.isBlank).map
          (Sql.image d) := by
  cases hf : p.isField with
  | true =>
    cases p with
    | field name =>
      obtain ⟨target, ht, hrow⟩ := hg name
      refine ⟨[.column target none], ?_, by simp [Term.Plain], fun d => ?_⟩
      · rw [entry, ht]
        rfl
      · have hs : (record.property name).IsStored := hp.2 rfl
        show [((Term.column target none).operand d).datum row] = _
        rw [datum_column, hrow, ← Sql.image_of_isStored (d := d) hs, entryValues_of_isField rfl]
        rfl
    | _ => cases hf
  | false =>
    obtain ⟨ts, hts, htp, hd⟩ := literals_eq_ok p hp.1
    refine ⟨ts, ?_, htp, fun d => hd d _⟩
    have he : g.entry p = (g.entryValues p >>= fun vs => literals p vs) := by
      cases p with
      | field => cases hf
      | _ => rfl
    rw [he, entryValues_eq record h hf]
    exact hts

theorem entries_eq_ok (hg : g.MapsTo record row) {items : List Predicate}
    (h : ∀ p ∈ items, p.IsOperand) (hp : ∀ p ∈ items, p.IsPlainEntry g.session record) :
    ∃ ts, g.entries items =
        .ok (ts, (Predicate.constantValues g.session record items).any Value.isBlank) ∧
      (∀ t ∈ ts, t.Plain) ∧ ∀ d, ts.map (fun t => (t.operand d).datum row) =
        (Predicate.listedValues g.session record items).map (Sql.image d) := by
  induction items with
  | nil => exact ⟨[], rfl, by simp, fun _ => rfl⟩
  | cons p ps ih =>
    obtain ⟨hp1, hps⟩ := List.forall_mem_cons.1 hp
    obtain ⟨h1, hs⟩ := List.forall_mem_cons.1 h
    obtain ⟨ts, hts, htp, htd⟩ := entry_eq_ok hg h1 hp1
    obtain ⟨us, hus, hup, hud⟩ := ih hs hps
    refine ⟨ts ++ us, ?_, List.forall_mem_append.2 ⟨htp, hup⟩, fun d => ?_⟩
    · have hb : (Predicate.constantValues g.session record (p :: ps)).any Value.isBlank =
          ((!p.isField && (p.entryValues g.session record).any Value.isBlank) ||
            (Predicate.constantValues g.session record ps).any Value.isBlank) := by
        unfold Predicate.constantValues
        cases hf : p.isField <;> simp [hf]
      simp only [entries, hts, hus]
      rw [hb]
      rfl
    · rw [List.map_append, htd, hud]
      simp [Predicate.listedValues]

theorem truth_constant (d : Dialect) (b : Bool) (row : Sql.Row) :
    (Condition.constantSearch d b).truth row = some b := by
  cases d <;> cases b <;> rfl

theorem truth_blank {t : Term} {v : Value} (hv : v.IsScalar) {row : Sql.Row}
    (ht : (t.operand d).datum row = Sql.image d v) :
    (Condition.blankSearch d t).truth row = some (v.isVoid || v.isBlank) := by
  show Sql.Truth.or (some ((t.operand d).datum row == .null))
    (((t.operand d).datum row).relate .equal (.text "")) = _
  rw [ht]
  cases hn : v.isVoid with
  | true =>
    rw [Sql.image_eq_null hv hn]
    rfl
  | false =>
    rw [beq_eq_false_iff_ne.2 (Sql.image_ne_null hv hn), Sql.relate_empty hv hn, Sql.Truth.or_some]

theorem truth_list {l : Term} {ts : List Term} {v : Value} {ws : List Value}
    (hl : (l.operand d).datum row = Sql.image d v)
    (hts : ts.map (fun t => (t.operand d).datum row) = ws.map (Sql.image d)) :
    (Condition.listSearch d l ts).truth row =
      Sql.Truth.any (ws.map fun w => (Sql.image d v).relate .equal (Sql.image d w)) := by
  have hitems : (ts.map (·.operand d)).map (fun item =>
      ((l.operand d).datum row).relate .equal (item.datum row)) =
      (ts.map fun t => (t.operand d).datum row).map fun a =>
        ((l.operand d).datum row).relate .equal a := by
    rw [List.map_map, List.map_map]
    rfl
  show Sql.Truth.any ((ts.map (·.operand d)).map _) = _
  rw [hitems, hts, hl, List.map_map]
  rfl

/-- A generated membership decides what the values decide. -/
theorem exists_membership (hg : g.MapsTo record row) {left : Predicate}
    {items : List Predicate} (hl : left.IsOperand) (hi : ∀ p ∈ items, p.IsOperand)
    (hlp : left.IsPlain g.session record) (hip : ∀ p ∈ items, p.IsPlainEntry g.session record) :
    ∃ c, g.membership left (.list items) = .ok c ∧ c.Plain ∧
      (c.search d).truth row =
        Predicate.membershipTruth d (left.operandValue g.session record)
          (Predicate.listedValues g.session record items)
          ((Predicate.constantValues g.session record items).any Value.isBlank) := by
  obtain ⟨l, hlt, hlpl, -, hld⟩ := term_eq_ok hg hl hlp
  obtain ⟨ts, hts, htp, htd⟩ := entries_eq_ok hg hi hip
  generalize (Predicate.constantValues g.session record items).any Value.isBlank = blank at *
  refine ⟨.oneOf l ts blank, ?_, ⟨hlpl, htp⟩, ?_⟩
  · simp only [membership, hlt, hts]
    rfl
  have hlist := truth_list (hld d) (htd d)
  -- a list without terms is not written, and would find nothing
  have hempty : ts.isEmpty = true → (Condition.listSearch d l ts).truth row = some false := by
    intro he
    rw [List.isEmpty_iff.1 he]
    rfl
  show (Condition.oneOfSearch d l ts blank).truth row = _
  unfold Condition.oneOfSearch Predicate.membershipTruth
  simp only [← hlist]
  cases blank with
  | true =>
    simp only [if_true]
    by_cases he : ts.isEmpty = true
    · rw [if_pos he, truth_blank hlp.1 (hld d), hempty he, Sql.Truth.or_some, Bool.or_false]
    · rw [if_neg he]
      show Sql.Truth.or ((Condition.blankSearch d l).truth _) _ = _
      rw [truth_blank hlp.1 (hld d)]
  | false =>
    simp only [Bool.false_eq_true, if_false]
    by_cases he : ts.isEmpty = true
    · rw [if_pos he, truth_constant, hempty he]
    · rw [if_neg he]

/-! ## Predicates -/

theorem truth_join (op : JoinOp) (c e : Condition) (row : Sql.Row) :
    ((Condition.join op c e).search d).truth row =
      match op with
      | .and => Sql.Truth.and ((c.search d).truth row) ((e.search d).truth row)
      | .or => Sql.Truth.or ((c.search d).truth row) ((e.search d).truth row) := by
  cases op <;> rfl

/-- The generated condition of a predicate decides what its values decide. -/
theorem exists_generate (hg : g.MapsTo record row) (h : p.Expressible)
    (hp : p.Comparable g.session record) :
    ∃ c, g.generate p = .ok (c, .empty) ∧ c.Plain ∧
      (c.search d).truth row = p.selection d g.session record := by
  induction h with
  | boolean b => exact ⟨.constant b, rfl, trivial, truth_constant d b _⟩
  | compare op hl hr =>
    obtain ⟨ho, hlp, hrp, -⟩ := hp
    obtain ⟨c, hc, hcp, hct⟩ := exists_comparison (d := d) hg ho hl hr hlp hrp
    exact ⟨c, by simp only [generate, hc]; rfl, hcp, hct⟩
  | isIn hl hne hi =>
    obtain ⟨hlp, hip⟩ := hp
    obtain ⟨c, hc, hcp, hct⟩ := exists_membership (d := d) hg hl hi hlp fun p hm => (hip p hm).1
    exact ⟨c, by simp only [generate, hc]; rfl, hcp, hct⟩
  | not _ ih =>
    obtain ⟨c, hc, hcp, hct⟩ := ih hp
    refine ⟨.not c, by simp only [generate, hc]; rfl, hcp, ?_⟩
    show Sql.Truth.not ((c.search d).truth _) = _
    rw [hct]
    rfl
  | join op _ _ ihl ihr =>
    obtain ⟨c, hc, hcp, hct⟩ := ihl hp.1
    obtain ⟨e, he, hep, het⟩ := ihr hp.2
    refine ⟨.join op c e, by simp only [generate, hc, he]; rfl, ⟨hcp, hep⟩, ?_⟩
    rw [truth_join, hct, het]
    cases op <;> rfl

end Generator

end RecordFilter
