import RecordFilter.Proofs.Sql.Agreement
import RecordFilter.Proofs.Sql.Parameters

/-!
# When filters fail

A filter that was read from an expression fails in two ways only: in memory at a pattern that is too
large, in a condition at a variable that holds more than one value where one is asked for.  Which of
these is reported is told by the tree: the first one from left to right.

    Blames .patternTooLarge (p.oversized session record) (p.evaluate session record)
                                                                        (blames_evaluate)
    Blames .ofCulprit (p.culprits g.session) (g.generate p)                (blames_generate)
-/

namespace RecordFilter

/-! ## Blame -/

section

variable {ε α β γ : Type} {blame : γ → ε} {cs ds : List γ} {r : Except ε α} {f : α → Except ε β}

/-- Whether a result is there, if there are no culprits, or else an error that names the first. -/
def Blames (blame : γ → ε) (cs : List γ) (r : Except ε α) : Prop :=
  match cs with
  | [] => ∃ a, r = .ok a
  | c :: _ => r = .error (blame c)

/-- The error of a result is that of its first culprit. -/
theorem Blames.eq_error_iff (h : Blames blame cs r) {e : ε} :
    r = .error e ↔ ∃ c, cs.head? = some c ∧ blame c = e := by
  cases cs with
  | nil =>
    obtain ⟨a, rfl⟩ := h
    simp
  | cons c cs =>
    cases h
    simp

/-- The culprits of a step come before those of what follows it. -/
theorem Blames.bind (hr : Blames blame cs r) (hf : ∀ a, r = .ok a → Blames blame ds (f a)) :
    Blames blame (cs ++ ds) (r >>= f) := by
  cases cs with
  | nil =>
    obtain ⟨a, rfl⟩ := hr
    exact hf a rfl
  | cons c cs =>
    cases hr
    rfl

/-- A step that cannot fail adds no culprits. -/
theorem Blames.bind_ok (hr : Blames blame cs r) (hf : ∀ a, r = .ok a → ∃ b, f a = .ok b) :
    Blames blame cs (r >>= f) := by
  have h : Blames blame (cs ++ []) (r >>= f) := hr.bind hf
  rw [List.append_nil] at h
  exact h

end

/-! ## In memory -/

namespace Predicate

/-- The pattern of a comparison of two values, if it is one and too large to be matched. -/
def oversizedPattern (op : CompareOp) (v w : Value) : List String :=
  if (op = .like ∨ op = .ilike) ∧ v.isNull = false ∧ w.isNull = false ∧
      Pattern.isTooLarge (Pattern.items w.text.toList) = true
  then [w.text] else []

/-- The patterns of a tree that are too large, from left to right. -/
def oversized (session : Variables) (record : Record) : Predicate → List String
  | compare op left right =>
    oversizedPattern op (left.operandValue session record) (right.operandValue session record)
  | not inner => inner.oversized session record
  | join _ left right => left.oversized session record ++ right.oversized session record
  | _ => []

variable {session : Variables} {record : Record} {p : Predicate}

/-- Whatever the test of size, a match fails of nothing but a pattern that does not pass it. -/
theorem blames_likeHolds (tooLarge : List PatternItem → Bool) (eq : Char → Char → Bool) (v w : Value) :
    Blames EvalError.patternTooLarge
      (if v.isNull = false ∧ w.isNull = false ∧ tooLarge (Pattern.items w.text.toList) = true
        then [w.text] else [])
      (likeHolds tooLarge eq v w) := by
  unfold likeHolds
  cases v.isNull with
  | true =>
    rw [if_neg (by simp)]
    exact ⟨_, rfl⟩
  | false =>
    cases w.isNull with
    | true =>
      rw [if_neg (by simp)]
      exact ⟨_, rfl⟩
    | false =>
      rw [if_neg (by simp : ¬ (false || false) = true)]
      cases hl : tooLarge (Pattern.items w.text.toList) with
      | true =>
        rw [if_pos ⟨rfl, rfl, rfl⟩]
        exact if_pos hl
      | false =>
        rw [if_neg (by simp)]
        exact ⟨_, if_neg (by simp [hl])⟩

theorem oversizedPattern_eq {op : CompareOp} (ho : op = .like ∨ op = .ilike) (v w : Value) :
    oversizedPattern op v w =
      if v.isNull = false ∧ w.isNull = false ∧
          Pattern.isTooLarge (Pattern.items w.text.toList) = true
        then [w.text] else [] := by
  simp only [oversizedPattern, ho, true_and]

theorem blames_comparisonHolds (op : CompareOp) (v w : Value) :
    Blames EvalError.patternTooLarge (oversizedPattern op v w) (comparisonHolds op v w) := by
  cases op with
  | like =>
    rw [oversizedPattern_eq (.inl rfl)]
    exact blames_likeHolds _ _ v w
  | ilike =>
    rw [oversizedPattern_eq (.inr rfl)]
    exact blames_likeHolds _ _ v w
  | _ => exact ⟨_, rfl⟩

/-- A tree that an expression can say is decided, unless a pattern of it is too large. -/
theorem blames_evaluate (h : p.Expressible) :
    Blames EvalError.patternTooLarge (p.oversized session record) (p.evaluate session record) := by
  induction h with
  | boolean b => exact ⟨b, rfl⟩
  | compare op hl hr =>
    rw [evaluate, leafValue_eq hl, leafValue_eq hr]
    exact blames_comparisonHolds op _ _
  | isIn hl hne hi =>
    rw [evaluate, membershipHolds, leafValue_eq hl, entered_eq_ok hi]
    exact ⟨_, rfl⟩
  | not _ ih =>
    rw [evaluate]
    exact ih.bind_ok fun b _ => ⟨!b, rfl⟩
  | join op _ _ ihl ihr =>
    rw [evaluate]
    exact ihl.bind fun a _ => ihr.bind_ok fun b _ => ⟨_, rfl⟩

/-! ## In conditions -/

end Predicate

namespace Value

/-- Whether a value is more than one: an array or an object. -/
def isCompound : Value → Bool
  | array _ => true
  | object _ => true
  | _ => false

/-- The items of an array; any other value is the only one of its own. -/
def spread : Value → List Value
  | array vs => vs
  | v => [v]

end Value

namespace Predicate

/-- Whether an operand is a variable that holds an array or an object. -/
def holdsCompound (session : Variables) : Predicate → Bool
  | var raw => (resolveVariable raw session).isCompound
  | _ => false

/-- Whether an entry of a list is a variable that holds an object, or an array that has an array or
an object among its items. -/
def listsCompound (session : Variables) : Predicate → Bool
  | var raw => (resolveVariable raw session).spread.any Value.isCompound
  | _ => false

/-- The operands of comparisons, left sides of memberships and entries of lists that hold more than
they may, from left to right. -/
def culprits (session : Variables) : Predicate → List Predicate
  | compare _ left right => [left, right].filter (holdsCompound session)
  | isIn left candidates =>
    [left].filter (holdsCompound session) ++ candidates.operands.filter (listsCompound session)
  | not inner => inner.culprits session
  | join _ left right => left.culprits session ++ right.culprits session
  | _ => []

end Predicate

/-- The error that names an operand. -/
def SqlError.ofCulprit (p : Predicate) : SqlError := .notSingle p.text

namespace Generator

open Predicate (holdsCompound listsCompound culprits)

variable {g : Generator} {p left right : Predicate} {items : List Predicate} {vs : List Value}

theorem literal?_eq_none_iff {v : Value} : literal? v = none ↔ v.isCompound = true := by
  cases v with
  | float x => cases x <;> simp [literal?, Value.isCompound]
  | _ => simp [literal?, Value.isCompound]

theorem blames_literal (p : Predicate) (v : Value) :
    Blames SqlError.ofCulprit (if v.isCompound then [p] else []) (literal p v) := by
  unfold literal
  cases hv : literal? v with
  | none =>
    rw [if_pos (literal?_eq_none_iff.1 hv)]
    rfl
  | some t =>
    have hsingle : v.isCompound = false := by
      rw [Bool.eq_false_iff, ne_eq, ← literal?_eq_none_iff, hv]
      nofun
    rw [hsingle]
    exact ⟨t, rfl⟩

theorem isCompound_of_isBlank {v : Value} (h : v.isBlank = true) : v.isCompound = false := by
  cases v with
  | array | object => cases h
  | _ => rfl

/-- The values of an entry are literals, unless one of them is compound; blank values are none. -/
theorem blames_literals (p : Predicate) (vs : List Value) :
    Blames SqlError.ofCulprit (if vs.any Value.isCompound then [p] else []) (literals p vs) := by
  induction vs with
  | nil => exact ⟨_, rfl⟩
  | cons v vs ih =>
    rw [literals, List.any_cons]
    cases hb : v.isBlank with
    | true =>
      rw [isCompound_of_isBlank hb, if_pos rfl, Bool.false_or]
      exact ih.bind_ok fun _ _ => ⟨_, rfl⟩
    | false =>
      have hv := blames_literal p v
      rw [if_neg Bool.false_ne_true]
      cases hc : v.isCompound with
      | true =>
        rw [hc, if_pos rfl] at hv
        rw [Bool.true_or, if_pos rfl, hv]
        rfl
      | false =>
        rw [hc] at hv
        rw [Bool.false_or]
        exact hv.bind fun t _ => ih.bind_ok fun _ _ => ⟨_, rfl⟩

theorem filter_singleton (f : Predicate → Bool) (p : Predicate) :
    [p].filter f = if f p then [p] else [] := by
  rw [List.filter_cons, List.filter_nil]

theorem blames_term (h : p.IsOperand) :
    Blames SqlError.ofCulprit ([p].filter (holdsCompound g.session)) (g.term p) := by
  cases p with
  | field | string | integer | boolean | null => exact ⟨_, rfl⟩
  | float x => cases x <;> exact ⟨_, rfl⟩
  | var raw =>
    have hv := blames_literal (.var raw) (resolveVariable raw g.session)
    rw [filter_singleton]
    exact hv
  | _ => exact absurd h id

theorem blames_entry (h : p.IsOperand) :
    Blames SqlError.ofCulprit ([p].filter (listsCompound g.session)) (g.entry p) := by
  cases p with
  | field | integer | boolean | null => exact ⟨_, rfl⟩
  | string s => exact blames_literals (.string s) [.string s]
  | float x => exact blames_literals (.float x) [.float x]
  | var raw =>
    have hentry : g.entry (.var raw) =
        literals (.var raw) (resolveVariable raw g.session).spread := by
      simp only [entry, entryValues, valueOf?]
      cases resolveVariable raw g.session <;> rfl
    rw [filter_singleton, hentry]
    exact blames_literals (.var raw) _
  | _ => exact absurd h id

theorem blames_entries (h : ∀ p ∈ items, p.IsOperand) :
    Blames SqlError.ofCulprit (items.filter (listsCompound g.session)) (g.entries items) := by
  induction items with
  | nil => exact ⟨_, rfl⟩
  | cons p ps ih =>
    obtain ⟨hp, hps⟩ := List.forall_mem_cons.1 h
    have hcons : (p :: ps).filter (listsCompound g.session) =
        [p].filter (listsCompound g.session) ++ ps.filter (listsCompound g.session) :=
      List.filter_append [p] ps
    rw [entries, hcons]
    exact (blames_entry hp).bind fun _ _ => (ih hps).bind_ok fun _ _ => ⟨_, rfl⟩

theorem tables_of_expressible (h : p.Expressible) : g.tables p = [] := by
  induction h with
  | boolean | compare | isIn => rfl
  | not _ ih => exact ih
  | join op _ _ ihl ihr => rw [tables, ihl, ihr, List.append_nil]

/-- Without spatial tests there are no parameters. -/
theorem params_of_expressible (h : p.Expressible) {c : Condition} {params : BindParams}
    (hc : g.generate p = .ok (c, params)) : params = .empty := by
  obtain ⟨-, -, hunion⟩ := union_of_generate hc
  rw [tables_of_expressible h] at hunion
  exact Table.ext hunion

theorem exists_merge_empty (params : BindParams) : ∃ u, BindParams.merge .empty params = .ok u := by
  cases h : BindParams.merge .empty params with
  | ok u => exact ⟨u, rfl⟩
  | error e =>
    obtain ⟨name, -, ⟨v, w, hv, -⟩, -⟩ := BindParams.conflict_of_merge h
    cases hv

/-- A tree that an expression can say has a condition, unless an operand of it holds more than it
may. -/
theorem blames_generate (h : p.Expressible) :
    Blames SqlError.ofCulprit (p.culprits g.session) (g.generate p) := by
  induction h with
  | boolean b => exact ⟨_, rfl⟩
  | @compare op left right hl hr =>
    have hpair : (Predicate.compare op left right).culprits g.session =
        [left].filter (holdsCompound g.session) ++ [right].filter (holdsCompound g.session) :=
      List.filter_append [left] [right]
    rw [generate, hpair, comparison_eq]
    refine Blames.bind_ok ?_ fun _ _ => ⟨_, rfl⟩
    exact (blames_term hl).bind fun _ _ => (blames_term hr).bind_ok fun _ _ => ⟨_, rfl⟩
  | isIn hl hne hi =>
    rw [generate]
    refine Blames.bind_ok ?_ fun _ _ => ⟨_, rfl⟩
    exact (blames_term hl).bind fun _ _ => (blames_entries hi).bind_ok fun _ _ => ⟨_, rfl⟩
  | not _ ih =>
    rw [generate]
    exact ih.bind_ok fun _ _ => ⟨_, rfl⟩
  | join op hl hr ihl ihr =>
    rw [generate]
    refine ihl.bind fun l hlok => ihr.bind_ok fun r hrok => ?_
    -- neither side has parameters, so there is nothing that merging them could fail at
    obtain ⟨c, params⟩ := l
    obtain ⟨d, others⟩ := r
    obtain rfl := params_of_expressible hl hlok
    obtain rfl := params_of_expressible hr hrok
    exact ⟨_, rfl⟩

end Generator

/-! ## Filters -/

namespace Filter

variable {s : String} {f : Filter}

/-- **The failures of a filter that was read.**  In memory it fails exactly at a pattern of `like`
or `ilike` that is too large.  Its fragment, with any parameters of its own, any columns, table,
provider and dialect, fails exactly where the operand of a comparison or the left side of a
membership is a variable that holds an array or an object, or where an entry of a list is a variable
that holds an object or an array with an array or an object in it; the error says which operand it
is, and that it is no single value. -/
theorem blames_of_parse (h : parse s = .ok f) (params : BindParams) :
    (∀ session record, Blames EvalError.patternTooLarge (f.root.oversized session record)
      (f.evaluate session record)) ∧
    ∀ g : Generator, Blames SqlError.ofCulprit (f.root.culprits g.session)
      ((Filter.mk f.root params).fragment g) := by
  obtain ⟨hparse, -⟩ := root_of_parse h
  obtain ⟨he, -⟩ := Predicate.expressible_of_parse hparse
  refine ⟨fun session record => Predicate.blames_evaluate he, fun g => ?_⟩
  have hmade : Blames SqlError.ofCulprit (f.root.culprits g.session) (g.fragment f.root) :=
    (Generator.blames_generate he).bind_ok fun _ _ => ⟨_, rfl⟩
  refine hmade.bind_ok fun made hok => ?_
  obtain ⟨⟨c, own⟩, hgen, hok⟩ := bind_eq_ok.1 hok
  cases hok
  obtain rfl := Generator.params_of_expressible he hgen
  obtain ⟨u, hu⟩ := Generator.exists_merge_empty params
  exact ⟨_, bind_eq_ok.2 ⟨u, hu, rfl⟩⟩

/-- `[a] like 'x%' & [b] in ({v}, 'y')` -/
def variableTree : Predicate :=
  .join .and (.compare .like (.field "a") (.string "x%"))
    (.isIn (.field "b") (.list [.var "v", .string "y"]))

theorem parse_variableTree : parse variableTree.text = .ok (ofPredicate variableTree) := by
  refine parse_of_parse (Predicate.parse_text ?_ (by decide) (by decide) ?_)
  · exact .join .and (.compare .like ⟨by decide, by decide⟩ trivial)
      (.isIn ⟨by decide, by decide⟩ (by simp)
        (List.forall_mem_cons.2 ⟨⟨by decide, by decide⟩, List.forall_mem_singleton.2 trivial⟩))
  · rw [Predicate.height_eq_levels]
    decide

def holding (v : Value) : Generator := ⟨"t", .empty, Table.ofList [("v", v)], none, .sql⟩

/-- A list entry may hold an array, but no array of arrays. -/
theorem blames_of_parse_variableTree :
    parse variableTree.text = .ok (ofPredicate variableTree) ∧
      (∃ b, (ofPredicate variableTree).evaluate (holding (.array [])).session
        (Table.ofList [("a", .string "xy")]) = .ok b) ∧
      (∃ made, (ofPredicate variableTree).fragment (holding (.array [.integer 1])) = .ok made) ∧
      (ofPredicate variableTree).fragment (holding (.array [.array []])) =
        .error (.notSingle "{v}") := by
  obtain ⟨hevaluate, hfragment⟩ := blames_of_parse parse_variableTree .empty
  have hsound : (ofPredicate variableTree).root.oversized (holding (.array [])).session
      (Table.ofList [("a", .string "xy")]) = [] := by decide
  have hflat : (ofPredicate variableTree).root.culprits
      (holding (.array [.integer 1])).session = [] := by decide
  have hnested : (ofPredicate variableTree).root.culprits
      (holding (.array [.array []])).session = [.var "v"] := rfl
  refine ⟨parse_variableTree, ?_, ?_, ?_⟩
  · have h := hevaluate (holding (.array [])).session (Table.ofList [("a", .string "xy")])
    rw [hsound] at h
    exact h
  · have h := hfragment (holding (.array [.integer 1]))
    rw [hflat] at h
    exact h
  · have h := hfragment (holding (.array [.array []]))
    rw [hnested] at h
    exact h

end Filter

end RecordFilter
