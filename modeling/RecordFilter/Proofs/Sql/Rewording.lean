import RecordFilter.Proofs.Results
import RecordFilter.Proofs.Sql.Agreement
import RecordFilter.Proofs.Sql.Parameters
import RecordFilter.Proofs.Sql.Quoting

/-!
# Data in generated conditions

The fragment of a filter takes strings and names from outside.  They end up in its quoted tokens, as
they are, and no other token depends on what they say.

    f.fragment g = .ok fragment → scan fragment.text = some ts →
      ts.filter isQuoted = g.quoted f.root
    Reworded g g' p q → the fragments of p and q have the same outline
-/

namespace RecordFilter

open Sql.Token (isQuoted outline)

/-! ## Values -/

namespace Value

/-- The quoted tokens of a value. -/
def quoted : Value → List Sql.Token
  | string s => [.text s]
  | _ => []

/-- Values that differ at most in what strings say.  The empty string stands apart: in a list it is
no value. -/
inductive Reworded : Value → Value → Prop
  | same (v : Value) : Reworded v v
  | string {s t : String} : s ≠ "" → t ≠ "" → Reworded (.string s) (.string t)
  | array {vs ws : List Value} : List.Forall₂ Reworded vs ws → Reworded (.array vs) (.array ws)

theorem isBlank_of_reworded {v w : Value} (h : Reworded v w) : v.isBlank = w.isBlank := by
  cases h with
  | same => rfl
  | string hs ht =>
    have hblank : ∀ s : String, s ≠ "" → (Value.string s).isBlank = false := by
      intro s hs
      exact Bool.eq_false_iff.2 fun he => hs (String.isEmpty_iff.1 he)
    rw [hblank _ hs, hblank _ ht]
  | array => rfl

section

variable {vs ws : List Value}

theorem isEmpty_filter (f : Value → Bool) (vs : List Value) :
    (vs.filter f).isEmpty = !vs.any f := by
  induction vs with
  | nil => rfl
  | cons v vs ih =>
    rw [List.filter_cons, List.any_cons]
    cases f v with
    | true => rfl
    | false => exact ih

theorem any_isBlank_of_reworded (h : List.Forall₂ Reworded vs ws) :
    vs.any isBlank = ws.any isBlank := by
  induction h with
  | nil => rfl
  | cons hv _ ih => rw [List.any_cons, List.any_cons, isBlank_of_reworded hv, ih]

theorem filter_of_reworded (h : List.Forall₂ Reworded vs ws) :
    List.Forall₂ Reworded (vs.filter fun v => !v.isBlank) (ws.filter fun w => !w.isBlank) := by
  induction h with
  | nil => exact .nil
  | @cons v w _ _ hv _ ih =>
    rw [List.filter_cons, List.filter_cons, isBlank_of_reworded hv]
    by_cases hw : (!w.isBlank) = true
    · rw [if_pos hw, if_pos hw]
      exact .cons hv ih
    · rw [if_neg hw, if_neg hw]
      exact ih

end

end Value

namespace Generator

variable {g g' : Generator} {p q left right : Predicate} {items : List Predicate}

/-! ## What a tree quotes -/

/-- No column is cast. -/
def Uncast (g : Generator) : Prop :=
  ∀ name t, g.fieldMap.get? name = some t → t.castType = none

/-- The name of the column behind a field. -/
def columnName (g : Generator) (name : String) : String :=
  match g.fieldMap.get? name with
  | some t => t.target
  | none => name

/-- The quoted tokens of an operand: the parts of the name of its column, or its string. -/
def quotedOperand (g : Generator) (p : Predicate) : List Sql.Token :=
  match p with
  | .field name =>
    (splitParts '.' (g.columnName name).toList).map fun part => .name (String.ofList part)
  | p =>
    match g.valueOf? p with
    | some v => v.quoted
    | none => []

/-- The values that an entry of a list stands for, if it is no field. -/
def listed (g : Generator) (p : Predicate) : List Value :=
  match g.valueOf? p with
  | some (.array vs) => vs
  | some v => [v]
  | none => []

/-- The quoted tokens of an entry of a list; what is blank is not written. -/
def quotedEntry (g : Generator) (p : Predicate) : List Sql.Token :=
  match p with
  | .field _ => g.quotedOperand p
  | p => ((g.listed p).filter fun v => !v.isBlank).flatMap Value.quoted

/-- Whether something of an entry is written in the list. -/
def isWritten (g : Generator) (p : Predicate) : Bool :=
  p.isField || (g.listed p).any fun v => !v.isBlank

/-- The quoted tokens of a membership: the test for blanks names the left side twice. -/
def quotedMembership (g : Generator) (left : Predicate) (items : List Predicate) : List Sql.Token :=
  (if items.any fun p => (g.listed p).any Value.isBlank then
    g.quotedOperand left ++ g.quotedOperand left ++ [.text ""] else []) ++
  if items.any g.isWritten then g.quotedOperand left ++ items.flatMap g.quotedEntry else []

/-- The quoted tokens of the fragment of a tree, in their order. -/
def quoted (g : Generator) : Predicate → List Sql.Token
  | .compare op left right =>
    g.quotedOperand left ++ Condition.quotedPattern g.dialect op (g.quotedOperand right)
  | .isIn left candidates => g.quotedMembership left candidates.operands
  | .not inner => g.quoted inner
  | .join _ left right => g.quoted left ++ g.quoted right
  | _ => []

/-! ## Trees that differ in data -/

/-- Operands that differ at most in what a string says, or in the name of a column with as many
dots.  Variables count by the values that they have, which may differ for the two generators. -/
inductive RewordedOperand (g g' : Generator) : Predicate → Predicate → Prop
  | column {m n : String} :
      (g.columnName m).toList.count '.' = (g'.columnName n).toList.count '.' →
      RewordedOperand g g' (.field m) (.field n)
  | value {p q : Predicate} {v w : Value} : g.valueOf? p = some v → g'.valueOf? q = some w →
      v.Reworded w → RewordedOperand g g' p q

/-- Trees of one shape whose operands differ at most in what strings and names say. -/
inductive Reworded (g g' : Generator) : Predicate → Predicate → Prop
  | boolean (b : Bool) : Reworded g g' (.boolean b) (.boolean b)
  | compare (op : CompareOp) {l r l' r' : Predicate} : RewordedOperand g g' l l' →
      RewordedOperand g g' r r' → Reworded g g' (.compare op l r) (.compare op l' r')
  | isIn {l l' : Predicate} {items items' : List Predicate} : RewordedOperand g g' l l' →
      List.Forall₂ (RewordedOperand g g') items items' →
      Reworded g g' (.isIn l (.list items)) (.isIn l' (.list items'))
  | not {inner inner' : Predicate} : Reworded g g' inner inner' →
      Reworded g g' (.not inner) (.not inner')
  | join (op : JoinOp) {l r l' r' : Predicate} : Reworded g g' l l' → Reworded g g' r r' →
      Reworded g g' (.join op l r) (.join op l' r')

/-! ## Terms -/

theorem column_eq (hg : g.Uncast) (name : String) :
    g.column name = .column (g.columnName name) none := by
  unfold column columnName
  cases h : g.fieldMap.get? name with
  | none => rfl
  | some t => simp only [hg name t h]

theorem literal_eq_ok_iff {origin : Predicate} {v : Value} {t : Term} :
    literal origin v = .ok t ↔ literal? v = some t := by
  unfold literal
  cases literal? v <;> simp

theorem quoted_literal {v : Value} {t : Term} (h : literal? v = some t) :
    t.Plain ∧ t.quoted = v.quoted := by
  unfold literal? at h
  split at h <;> cases h <;> exact ⟨trivial, rfl⟩

theorem exists_literal {v w : Value} {t : Term} (hv : v.Reworded w) (h : literal? v = some t) :
    ∃ u, literal? w = some u ∧ t.Alike u := by
  cases hv with
  | same => exact ⟨t, h, .same t⟩
  | string =>
    cases h
    exact ⟨_, rfl, .string _ _⟩
  | array => cases h

/-- A term is a column, or the literal of a value. -/
theorem term_eq_ok_iff {t : Term} : g.term p = .ok t ↔
    (∃ name, p = .field name ∧ t = g.column name) ∨
      ∃ v, g.valueOf? p = some v ∧ literal? v = some t := by
  cases p with
  | field name => simp [term, valueOf?, eq_comm]
  | _ => simp [term, valueOf?, literal_eq_ok_iff]

theorem quoted_term (hg : g.Uncast) {t : Term} (h : g.term p = .ok t) :
    t.Plain ∧ t.quoted = g.quotedOperand p := by
  rcases term_eq_ok_iff.1 h with ⟨name, rfl, rfl⟩ | ⟨v, hv, ht⟩
  · rw [column_eq hg]
    exact ⟨rfl, rfl⟩
  · have hq : g.quotedOperand p = v.quoted := by
      unfold quotedOperand
      cases p with
      | field => cases hv
      | _ => simp only [hv]
    rw [hq]
    exact quoted_literal ht

theorem exists_term (hg : g.Uncast) (hg' : g'.Uncast) {t : Term} (hpq : RewordedOperand g g' p q)
    (h : g.term p = .ok t) : ∃ u, g'.term q = .ok u ∧ t.Alike u := by
  cases hpq with
  | column hn =>
    cases h
    refine ⟨_, rfl, ?_⟩
    rw [column_eq hg, column_eq hg']
    exact .column hn
  | value hv hw hvw =>
    rcases term_eq_ok_iff.1 h with ⟨name, rfl, -⟩ | ⟨v, hv', ht⟩
    · cases hv
    · cases hv.symm.trans hv'
      obtain ⟨u, hu, htu⟩ := exists_literal hvw ht
      exact ⟨u, term_eq_ok_iff.2 (.inr ⟨_, hw, hu⟩), htu⟩

/-! ## Comparisons -/

theorem comparison_eq_ok_iff {op : CompareOp} {c : Condition} :
    g.comparison op left right = .ok c ↔
      ∃ l r, g.term left = .ok l ∧ g.term right = .ok r ∧ c = compared op l r := by
  constructor
  · intro h
    rw [comparison_eq] at h
    obtain ⟨l, hl, h⟩ := bind_eq_ok.1 h
    obtain ⟨r, hr, hc⟩ := bind_eq_ok.1 h
    exact ⟨l, r, hl, hr, (Except.ok.inj hc).symm⟩
  · rintro ⟨l, r, hl, hr, rfl⟩
    exact comparison_of_terms hl hr

variable {l r l' r' : Term} {op : CompareOp} {d : Dialect}

/-- Where a comparison is a test for a missing value, its right side has nothing to quote. -/
theorem quoted_compared (d : Dialect) (op : CompareOp) (hl : l.Plain) (hr : r.Plain) :
    (compared op l r).Uncast ∧ ((compared op l r).tokens d).filter isQuoted =
      l.quoted ++ Condition.quotedPattern d op r.quoted := by
  unfold compared
  split
  · refine ⟨hl, ?_⟩
    simp [Condition.tokens, Condition.nullTokens, Term.filter_tokens, Term.quoted,
      Condition.quotedPattern, isQuoted]
  · refine ⟨hl, ?_⟩
    simp [Condition.tokens, Term.filter_tokens, Term.quoted, Condition.quotedPattern, isQuoted]
  · exact ⟨⟨hl, hr⟩, Condition.filter_comparisonTokens op⟩

theorem outline_compared (hl : l.Alike l') (hr : r.Alike r') :
    ((compared op l r).tokens d).map outline = ((compared op l' r').tokens d).map outline := by
  have hlt := Term.outline_tokens d hl
  by_cases hn : r = .null
  · -- a missing right side stays missing, and the test for it depends on the operator alone
    subst hn
    obtain rfl := hr.eq_null
    cases op with
    | equal => simp [compared, Condition.tokens, Condition.nullTokens, hlt]
    | notEqual => simp [compared, Condition.tokens, hlt]
    | _ => exact Condition.outline_comparisonTokens _ hl hr
  · have hn' : r' ≠ .null := by
      rintro rfl
      cases hr
      exact hn rfl
    rw [compared_of_ne_null hn, compared_of_ne_null hn']
    exact Condition.outline_comparisonTokens op hl hr

/-! ## Lists -/

variable {origin : Predicate} {vs : List Value} {ts : List Term} {b : Bool}

theorem literals_eq_ok_iff : literals origin vs = .ok (ts, b) ↔ b = vs.any Value.isBlank ∧
    List.Forall₂ (fun v t => literal? v = some t) (vs.filter fun v => !v.isBlank) ts := by
  induction vs generalizing ts b with
  | nil =>
    constructor
    · intro h
      cases h
      exact ⟨rfl, .nil⟩
    · rintro ⟨rfl, hts⟩
      cases hts
      rfl
  | cons v vs ih =>
    rw [literals]
    cases hv : v.isBlank with
    | true =>
      rw [if_pos rfl, bind_eq_ok, List.filter_cons_of_neg (by simp [hv]), List.any_cons, hv,
        Bool.true_or]
      constructor
      · rintro ⟨⟨us, blank⟩, hus, h⟩
        cases h
        exact ⟨rfl, (ih.1 hus).2⟩
      · rintro ⟨rfl, hts⟩
        exact ⟨(ts, _), ih.2 ⟨rfl, hts⟩, rfl⟩
    | false =>
      rw [if_neg (by simp), List.filter_cons_of_pos (by simp [hv]), List.any_cons, hv,
        Bool.false_or]
      simp only [bind_eq_ok, literal_eq_ok_iff]
      constructor
      · rintro ⟨t, ht, ⟨us, blank⟩, hus, h⟩
        cases h
        obtain ⟨rfl, hts⟩ := ih.1 hus
        exact ⟨rfl, .cons ht hts⟩
      · rintro ⟨rfl, hts⟩
        cases hts with
        | cons ht hus => exact ⟨_, ht, (_, _), ih.2 ⟨rfl, hus⟩, rfl⟩

theorem flatMap_quoted (h : List.Forall₂ (fun v t => literal? v = some t) vs ts) :
    ts.flatMap Term.quoted = vs.flatMap Value.quoted := by
  induction h with
  | nil => rfl
  | cons ht _ ih => rw [List.flatMap_cons, List.flatMap_cons, ih, (quoted_literal ht).2]

theorem exists_literals {ws : List Value} (hvs : List.Forall₂ Value.Reworded vs ws)
    (h : List.Forall₂ (fun v t => literal? v = some t) vs ts) :
    ∃ us, List.Forall₂ (fun v t => literal? v = some t) ws us ∧ List.Forall₂ Term.Alike ts us := by
  induction hvs generalizing ts with
  | nil =>
    cases h
    exact ⟨[], .nil, .nil⟩
  | cons hv _ ih =>
    cases h with
    | cons ht hts =>
      obtain ⟨u, hu, htu⟩ := exists_literal hv ht
      obtain ⟨us, hus, htus⟩ := ih hts
      exact ⟨u :: us, .cons hu hus, .cons htu htus⟩

theorem entryValues_eq_listed {v : Value} (hv : g.valueOf? p = some v) :
    g.entryValues p = .ok (g.listed p) := by
  cases p with
  | var raw =>
    simp only [entryValues, listed, valueOf?]
    cases resolveVariable raw g.session <;> rfl
  | string | integer | float | boolean | null => rfl
  | _ => cases hv

theorem isField_of_valueOf? {v : Value} (hv : g.valueOf? p = some v) : p.isField = false := by
  cases p with
  | field => cases hv
  | _ => rfl

/-- An entry is a column, or the literals of the values that it stands for. -/
theorem entry_eq_ok_iff : g.entry p = .ok (ts, b) ↔
    (∃ name, p = .field name ∧ ts = [g.column name] ∧ b = false) ∨
      ∃ v, g.valueOf? p = some v ∧ literals p (g.listed p) = .ok (ts, b) := by
  have hentry : p.isField = false → g.entry p = (g.entryValues p >>= literals p) := by
    intro hf
    cases p with
    | field => cases hf
    | _ => rfl
  constructor
  · intro h
    cases hf : p.isField with
    | true =>
      cases p with
      | field name =>
        cases h
        exact .inl ⟨name, rfl, rfl, rfl⟩
      | _ => cases hf
    | false =>
      rw [hentry hf] at h
      cases hv : g.valueOf? p with
      | some v =>
        rw [entryValues_eq_listed hv] at h
        exact .inr ⟨v, rfl, h⟩
      | none =>
        obtain ⟨vs, hvs, -⟩ := bind_eq_ok.1 h
        unfold entryValues at hvs
        simp only [hv] at hvs
        cases hvs
  · rintro (⟨name, rfl, rfl, rfl⟩ | ⟨v, hv, h⟩)
    · rfl
    · rw [hentry (isField_of_valueOf? hv), entryValues_eq_listed hv]
      exact h

/-- What an entry adds to a list: its terms, and whether it is blank. -/
theorem quoted_entry (hg : g.Uncast) (h : g.entry p = .ok (ts, b)) :
    (∀ t ∈ ts, t.Plain) ∧ ts.flatMap Term.quoted = g.quotedEntry p ∧
      ts.isEmpty = !g.isWritten p ∧ b = (g.listed p).any Value.isBlank := by
  rcases entry_eq_ok_iff.1 h with ⟨name, rfl, rfl, rfl⟩ | ⟨v, hv, h⟩
  · rw [column_eq hg]
    refine ⟨List.forall_mem_singleton.2 rfl, ?_, rfl, rfl⟩
    exact List.flatMap_singleton ..
  · obtain ⟨rfl, hts⟩ := literals_eq_ok_iff.1 h
    have hf := isField_of_valueOf? hv
    have hplain : ∀ t ∈ ts, t.Plain :=
      forall_mem_of_forall₂ hts (fun _ _ ht _ => (quoted_literal ht).1) fun _ _ => trivial
    refine ⟨hplain, ?_, ?_, rfl⟩
    · rw [flatMap_quoted hts]
      cases p with
      | field => cases hf
      | _ => rfl
    · rw [← isEmpty_of_forall₂ hts, Value.isEmpty_filter, isWritten, hf, Bool.false_or]

theorem forall₂_listed {v w : Value} (hv : g.valueOf? p = some v) (hw : g'.valueOf? q = some w)
    (h : v.Reworded w) : List.Forall₂ Value.Reworded (g.listed p) (g'.listed q) := by
  unfold listed
  rw [hv, hw]
  cases h with
  | same => exact List.forall₂_same.2 fun v _ => .same v
  | string hs ht => exact .cons (.string hs ht) .nil
  | array h => exact h

theorem exists_entry (hg : g.Uncast) (hg' : g'.Uncast) (hpq : RewordedOperand g g' p q)
    (h : g.entry p = .ok (ts, b)) :
    ∃ us, g'.entry q = .ok (us, b) ∧ List.Forall₂ Term.Alike ts us := by
  cases hpq with
  | column hn =>
    cases h
    refine ⟨_, rfl, ?_⟩
    rw [column_eq hg, column_eq hg']
    exact .cons (.column hn) .nil
  | value hv hw hvw =>
    have hlisted := forall₂_listed hv hw hvw
    rcases entry_eq_ok_iff.1 h with ⟨name, rfl, -⟩ | ⟨v, -, h⟩
    · cases hv
    · obtain ⟨rfl, hts⟩ := literals_eq_ok_iff.1 h
      obtain ⟨us, hus, htus⟩ := exists_literals (Value.filter_of_reworded hlisted) hts
      refine ⟨us, entry_eq_ok_iff.2 (.inr ⟨_, hw, literals_eq_ok_iff.2 ⟨?_, hus⟩⟩), htus⟩
      exact Value.any_isBlank_of_reworded hlisted

/-! ## Memberships -/

theorem entries_cons_eq_ok_iff : g.entries (p :: items) = .ok (ts, b) ↔
    ∃ us blank vs blanks, g.entry p = .ok (us, blank) ∧ g.entries items = .ok (vs, blanks) ∧
      ts = us ++ vs ∧ b = (blank || blanks) := by
  rw [entries]
  simp only [bind_eq_ok]
  constructor
  · rintro ⟨⟨us, blank⟩, hus, ⟨vs, blanks⟩, hvs, h⟩
    cases h
    exact ⟨us, blank, vs, blanks, hus, hvs, rfl, rfl⟩
  · rintro ⟨us, blank, vs, blanks, hus, hvs, rfl, rfl⟩
    exact ⟨(us, blank), hus, (vs, blanks), hvs, rfl⟩

theorem quoted_entries (hg : g.Uncast) (h : g.entries items = .ok (ts, b)) :
    (∀ t ∈ ts, t.Plain) ∧ ts.flatMap Term.quoted = items.flatMap g.quotedEntry ∧
      ts.isEmpty = !items.any g.isWritten ∧
      b = items.any fun p => (g.listed p).any Value.isBlank := by
  induction items generalizing ts b with
  | nil =>
    cases h
    exact ⟨by simp, rfl, rfl, rfl⟩
  | cons p items ih =>
    obtain ⟨us, blank, vs, blanks, hus, hvs, rfl, rfl⟩ := entries_cons_eq_ok_iff.1 h
    obtain ⟨hup, huq, hue, rfl⟩ := quoted_entry hg hus
    obtain ⟨hvp, hvq, hve, rfl⟩ := ih hvs
    refine ⟨List.forall_mem_append.2 ⟨hup, hvp⟩, ?_, ?_, rfl⟩
    · rw [List.flatMap_append, List.flatMap_cons, huq, hvq]
    · rw [List.any_cons, Bool.not_or, ← hue, ← hve]
      cases us <;> rfl

theorem exists_entries (hg : g.Uncast) (hg' : g'.Uncast) {items' : List Predicate}
    (hpq : List.Forall₂ (RewordedOperand g g') items items') (h : g.entries items = .ok (ts, b)) :
    ∃ us, g'.entries items' = .ok (us, b) ∧ List.Forall₂ Term.Alike ts us := by
  induction hpq generalizing ts b with
  | nil =>
    cases h
    exact ⟨[], rfl, .nil⟩
  | cons hp _ ih =>
    obtain ⟨us, blank, vs, blanks, hus, hvs, rfl, rfl⟩ := entries_cons_eq_ok_iff.1 h
    obtain ⟨us', hus', hu⟩ := exists_entry hg hg' hp hus
    obtain ⟨vs', hvs', hv⟩ := ih hvs
    refine ⟨us' ++ vs', entries_cons_eq_ok_iff.2 ⟨us', _, vs', _, hus', hvs', rfl, rfl⟩, ?_⟩
    exact List.rel_append hu hv

theorem membership_eq_ok_iff {c : Condition} : g.membership left (.list items) = .ok c ↔
    ∃ l ts blank, g.term left = .ok l ∧ g.entries items = .ok (ts, blank) ∧
      c = .oneOf l ts blank := by
  rw [membership]
  simp only [bind_eq_ok]
  constructor
  · rintro ⟨l, hl, ⟨ts, blank⟩, hts, h⟩
    cases h
    exact ⟨l, ts, blank, hl, hts, rfl⟩
  · rintro ⟨l, ts, blank, hl, hts, rfl⟩
    exact ⟨l, hl, (ts, blank), hts, rfl⟩

/-! ## Conditions -/

/-- Trees of comparisons and memberships, without spatial tests. -/
inductive NonSpatial : Predicate → Prop
  | boolean (b : Bool) : NonSpatial (.boolean b)
  | compare (op : CompareOp) (left right : Predicate) : NonSpatial (.compare op left right)
  | isIn (left : Predicate) (items : List Predicate) : NonSpatial (.isIn left (.list items))
  | not {inner : Predicate} : NonSpatial inner → NonSpatial (.not inner)
  | join (op : JoinOp) {left right : Predicate} : NonSpatial left → NonSpatial right →
      NonSpatial (.join op left right)

theorem nonSpatial_of_expressible (h : p.Expressible) : NonSpatial p := by
  induction h with
  | boolean b => exact .boolean b
  | compare op => exact .compare op _ _
  | isIn => exact .isIn _ _
  | not _ ih => exact .not ih
  | join op _ _ ihl ihr => exact .join op ihl ihr

theorem nonSpatial_of_reworded (h : Reworded g g' p q) : NonSpatial q := by
  induction h with
  | boolean b => exact .boolean b
  | compare op => exact .compare op _ _
  | isIn => exact .isIn _ _
  | not _ ih => exact .not ih
  | join op _ _ ihl ihr => exact .join op ihl ihr

/-- The quoted tokens of a generated condition are those of its tree. -/
theorem quoted_generate (hg : g.Uncast) (hp : NonSpatial p) {c : Condition}
    {params : BindParams} (h : g.generate p = .ok (c, params)) :
    params = .empty ∧ c.Uncast ∧ (c.tokens g.dialect).filter isQuoted = g.quoted p := by
  induction hp generalizing c params with
  | boolean b =>
    cases h
    exact ⟨rfl, trivial, Condition.filter_constantTokens b⟩
  | compare op left right =>
    obtain ⟨c, hc, h⟩ := bind_eq_ok.1 h
    cases h
    obtain ⟨l, r, hl, hr, rfl⟩ := comparison_eq_ok_iff.1 hc
    obtain ⟨hlp, hlq⟩ := quoted_term hg hl
    obtain ⟨hrp, hrq⟩ := quoted_term hg hr
    obtain ⟨hu, hq⟩ := quoted_compared g.dialect op hlp hrp
    rw [hlq, hrq] at hq
    exact ⟨rfl, hu, hq⟩
  | isIn left items =>
    obtain ⟨c, hc, h⟩ := bind_eq_ok.1 h
    cases h
    obtain ⟨l, ts, blank, hl, hts, rfl⟩ := membership_eq_ok_iff.1 hc
    obtain ⟨hlp, hlq⟩ := quoted_term hg hl
    obtain ⟨htp, htq, hte, rfl⟩ := quoted_entries hg hts
    refine ⟨rfl, ⟨hlp, htp⟩, ?_⟩
    rw [Condition.tokens, Condition.filter_oneOfTokens, hlq, htq, hte, quoted, quotedMembership,
      Predicate.operands]
    cases items.any g.isWritten <;> rfl
  | not _ ih =>
    obtain ⟨e, he, rfl⟩ := generate_not_eq_ok_iff.1 h
    obtain ⟨hparams, heu, heq⟩ := ih he
    exact ⟨hparams, heu, heq⟩
  | join op _ _ ihl ihr =>
    obtain ⟨e, f, es, fs, he, hf, hm, rfl⟩ := generate_join_eq_ok h
    obtain ⟨rfl, heu, heq⟩ := ihl he
    obtain ⟨rfl, hfu, hfq⟩ := ihr hf
    cases hm
    refine ⟨rfl, ⟨heu, hfu⟩, ?_⟩
    simp [Condition.tokens, heq, hfq, quoted, isQuoted]

/-- Trees that differ in data have conditions that differ in quoted tokens. -/
theorem exists_generate_reworded (hg : g.Uncast) (hg' : g'.Uncast) (h : Reworded g g' p q)
    (d : Dialect) {c : Condition} {params : BindParams} (hc : g.generate p = .ok (c, params)) :
    ∃ e, g'.generate q = .ok (e, .empty) ∧
      (e.tokens d).map outline = (c.tokens d).map outline := by
  induction h generalizing c params with
  | boolean b =>
    cases hc
    exact ⟨_, rfl, rfl⟩
  | compare op hl hr =>
    obtain ⟨c, hcomparison, h⟩ := bind_eq_ok.1 hc
    cases h
    obtain ⟨l, r, hlt, hrt, rfl⟩ := comparison_eq_ok_iff.1 hcomparison
    obtain ⟨l', hl', hla⟩ := exists_term hg hg' hl hlt
    obtain ⟨r', hr', hra⟩ := exists_term hg hg' hr hrt
    exact ⟨_, bind_eq_ok.2 ⟨_, comparison_of_terms hl' hr', rfl⟩, (outline_compared hla hra).symm⟩
  | isIn hl hi =>
    obtain ⟨c, hmembership, h⟩ := bind_eq_ok.1 hc
    cases h
    obtain ⟨l, ts, blank, hlt, hts, rfl⟩ := membership_eq_ok_iff.1 hmembership
    obtain ⟨l', hl', hla⟩ := exists_term hg hg' hl hlt
    obtain ⟨us, hus, hua⟩ := exists_entries hg hg' hi hts
    have hc' : g'.membership _ (.list _) = .ok (.oneOf l' us blank) :=
      membership_eq_ok_iff.2 ⟨l', us, blank, hl', hus, rfl⟩
    exact ⟨_, bind_eq_ok.2 ⟨_, hc', rfl⟩, (Condition.outline_oneOfTokens hla hua blank).symm⟩
  | not _ ih =>
    obtain ⟨e, he, rfl⟩ := generate_not_eq_ok_iff.1 hc
    obtain ⟨e', he', ho⟩ := ih he
    refine ⟨.not e', generate_not_eq_ok_iff.2 ⟨e', he', rfl⟩, ?_⟩
    rw [Condition.tokens, Condition.tokens, List.map_cons, List.map_cons, ho]
  | join op _ _ ihl ihr =>
    obtain ⟨e, f, es, fs, he, hf, -, rfl⟩ := generate_join_eq_ok hc
    obtain ⟨e', he', heo⟩ := ihl he
    obtain ⟨f', hf', hfo⟩ := ihr hf
    refine ⟨.join op e' f', ?_, ?_⟩
    · simp only [generate, he', hf']
      rfl
    · simp [Condition.tokens, heo, hfo]

end Generator

/-! ## Fragments -/

namespace Filter

variable {g g' : Generator} {p q : Predicate} {made : Fragment}

open Generator (NonSpatial Reworded)

/-- The fragment of a tree is the text of its condition. -/
theorem fragment_eq_ok_iff (hg : g.Uncast) (hp : NonSpatial p) :
    (ofPredicate p).fragment g = .ok made ↔
      ∃ c, g.generate p = .ok (c, .empty) ∧ made = .ofText (c.text g.dialect) := by
  have hf : (ofPredicate p).fragment g = (g.generate p >>= fun r =>
      (Fragment.mk (r.1.text g.dialect) r.2).mergeParams .empty) := by
    simp only [fragment, Generator.fragment, ofPredicate]
    cases g.generate p <;> rfl
  rw [hf, bind_eq_ok]
  constructor
  · rintro ⟨⟨c, params⟩, hc, h⟩
    obtain ⟨rfl, -, -⟩ := Generator.quoted_generate hg hp hc
    cases h
    exact ⟨c, hc, rfl⟩
  · rintro ⟨c, hc, rfl⟩
    exact ⟨(c, .empty), hc, rfl⟩

theorem scan_generated (hg : g.Uncast) (hp : NonSpatial p) {c : Condition}
    (hc : g.generate p = .ok (c, .empty)) :
    Sql.Scanner.gap.scan (c.text g.dialect).toList = some (c.tokens g.dialect) ∧
      (c.tokens g.dialect).filter isQuoted = g.quoted p := by
  obtain ⟨-, hu, hq⟩ := Generator.quoted_generate hg hp hc
  exact ⟨Sql.scan_text hu, hq⟩

/-- **Data stays between quotes.**  The quoted tokens of a fragment are, in their order, the strings
of the tree and of its variables, the parts of its columns' names, the empty string in tests for
blanks and the escape character of patterns.  Whatever strings and names say, only these tokens
depend on it: with other strings and names there is a fragment too, and it has the same outline. -/
theorem scan_fragment {s : String} {f : Filter} (hparse : parse s = .ok f) (hg : g.Uncast)
    (h : f.fragment g = .ok made) :
    ∃ ts, Sql.Scanner.gap.scan made.text.toList = some ts ∧ ts.filter isQuoted = g.quoted f.root ∧
      ∀ g' q, Generator.Uncast g' → g'.dialect = g.dialect → Reworded g g' f.root q →
        ∃ made' us, (ofPredicate q).fragment g' = .ok made' ∧
          Sql.Scanner.gap.scan made'.text.toList = some us ∧
          us.map outline = ts.map outline ∧ us.filter isQuoted = g'.quoted q := by
  obtain ⟨hroot, hparams⟩ := root_of_parse hparse
  obtain ⟨p, params⟩ := f
  obtain rfl : params = .empty := hparams
  have hp : NonSpatial p :=
    Generator.nonSpatial_of_expressible (Predicate.expressible_of_parse hroot).1
  obtain ⟨c, hc, rfl⟩ := (fragment_eq_ok_iff hg hp).1 h
  obtain ⟨hscan, hquoted⟩ := scan_generated hg hp hc
  refine ⟨c.tokens g.dialect, hscan, hquoted, ?_⟩
  intro g' q hg' hd hpq
  have hq : NonSpatial q := Generator.nonSpatial_of_reworded hpq
  obtain ⟨e, he, ho⟩ := Generator.exists_generate_reworded hg hg' hpq g.dialect hc
  obtain ⟨hscan', hquoted'⟩ := scan_generated hg' hq he
  rw [hd] at hscan' hquoted'
  exact ⟨_, _, (fragment_eq_ok_iff hg' hq).2 ⟨e, he, rfl⟩, hd ▸ hscan', ho, hquoted'⟩

/-- `a` is a column of another name, and the variable `v` holds a text and a missing value. -/
def quotingGenerator (column text : String) : Generator where
  table := "records"
  fieldMap := Table.ofList [("a", ⟨column, none⟩)]
  session := Table.ofList [("v", .array [.string text, .null])]
  geometry := none
  dialect := .cql

/-- `[a] ilike 'pattern' | [name] in ('x', {v})` -/
def quotingTree (pattern name : String) : Predicate :=
  .join .or (.compare .ilike (.field "a") (.string pattern))
    (.isIn (.field name) (.list [.string "x", .var "v"]))

theorem uncast_quotingGenerator (column text : String) :
    (quotingGenerator column text).Uncast := by
  intro name t h
  have hget : (quotingGenerator column text).fieldMap.get? name =
      if "a" = name then some ⟨column, none⟩ else none := rfl
  rw [hget] at h
  split at h
  · cases h
    rfl
  · cases h

theorem parse_quotingTree :
    parse (quotingTree "It's" "n").text = .ok (ofPredicate (quotingTree "It's" "n")) := by
  refine parse_of_parse (Predicate.parse_text ?_ (by decide) (by decide) ?_)
  · exact .join .or (.compare .ilike ⟨by decide, by decide⟩ trivial)
      (.isIn ⟨by decide, by decide⟩ (by simp) (List.forall_mem_cons.2
        ⟨trivial, List.forall_mem_singleton.2 ⟨by decide, by decide, by decide⟩⟩))
  · rw [Predicate.height_eq_levels]
    decide

theorem exists_generate_quotingTree :
    ∃ c, (quotingGenerator "t.a" "y'").generate (quotingTree "It's" "n") = .ok (c, .empty) :=
  ⟨_, rfl⟩

theorem reworded_quotingTree :
    Reworded (quotingGenerator "t.a" "y'") (quotingGenerator "u.\"b" "') OR (")
      (quotingTree "It's" "n") (quotingTree "' OR 1=1" "m\" = 1 --") := by
  have hpattern : Value.Reworded (.string "It's") (.string "' OR 1=1") :=
    .string (by decide) (by decide)
  have hv : List.Forall₂ Value.Reworded [.string "y'", .null] [.string "') OR (", .null] :=
    .cons (.string (by decide) (by decide)) (.cons (.same _) .nil)
  refine .join .or (.compare .ilike (.column rfl) (.value rfl rfl hpattern)) ?_
  exact .isIn (.column rfl)
    (.cons (.value rfl rfl (.same _)) (.cons (.value rfl rfl (.array hv)) .nil))

/-- A string that would end its literal and a name that would end its quotes stay within them. -/
theorem scan_fragment_quotingTree :
    parse (quotingTree "It's" "n").text = .ok (ofPredicate (quotingTree "It's" "n")) ∧
      (quotingGenerator "t.a" "y'").Uncast ∧
      ∃ made made' ts us,
        (ofPredicate (quotingTree "It's" "n")).fragment (quotingGenerator "t.a" "y'") = .ok made ∧
        (ofPredicate (quotingTree "' OR 1=1" "m\" = 1 --")).fragment
          (quotingGenerator "u.\"b" "') OR (") = .ok made' ∧
        Sql.Scanner.gap.scan made.text.toList = some ts ∧
        Sql.Scanner.gap.scan made'.text.toList = some us ∧ us.map outline = ts.map outline ∧
        ts.filter isQuoted = [.name "t", .name "a", .text "it's", .name "n", .name "n", .text "",
          .name "n", .text "x", .text "y'"] ∧
        us.filter isQuoted = [.name "u", .name "\"b", .text "' or 1=1", .name "m\" = 1 --",
          .name "m\" = 1 --", .text "", .name "m\" = 1 --", .text "x", .text "') OR ("] := by
  have hg := uncast_quotingGenerator "t.a" "y'"
  have hg' := uncast_quotingGenerator "u.\"b" "') OR ("
  have hp : NonSpatial (quotingTree "It's" "n") :=
    .join .or (.compare .ilike _ _) (.isIn _ _)
  obtain ⟨c, hc⟩ := exists_generate_quotingTree
  have hmade := (fragment_eq_ok_iff hg hp).2 ⟨c, hc, rfl⟩
  obtain ⟨ts, hts, hquoted, hreworded⟩ := scan_fragment parse_quotingTree hg hmade
  obtain ⟨made', us, hmade', hus, houtline, hquoted'⟩ := hreworded _ _ hg' rfl reworded_quotingTree
  exact ⟨parse_quotingTree, hg, _, made', ts, us, hmade, hmade', hts, hus, houtline, hquoted,
    hquoted'⟩

end Filter

end RecordFilter
