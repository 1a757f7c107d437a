import RecordFilter.Proofs.Sql.Agreement

/-!
# Entries of lists

A variable that holds an array stands for the items of the array, one by one: written out as
constants in its place, they give the same truth value for every record and the same fragment.
Nor does a record tell in which order the entries of a list stand, or how often.

    Relisted (SpelledOut session) p q → p.evaluate session record = q.evaluate session record
                                        and g.generate p = g.generate q    (g.session = session)
    Relisted SameEntries p q → p.evaluate session record = q.evaluate session record
-/

namespace RecordFilter

namespace Predicate

/-! ## Lists in trees -/

/-- The trees that differ in the lists of their memberships alone, each list being related to the
one in its place. -/
inductive Relisted (R : List Predicate → List Predicate → Prop) : Predicate → Predicate → Prop
  | same (p : Predicate) : Relisted R p p
  | list (left : Predicate) {items others : List Predicate} :
      R items others → Relisted R (.isIn left (.list items)) (.isIn left (.list others))
  | not {inner other : Predicate} : Relisted R inner other → Relisted R (.not inner) (.not other)
  | join (op : JoinOp) {left right left' right' : Predicate} :
      Relisted R left left' → Relisted R right right' →
      Relisted R (.join op left right) (.join op left' right')

/-- The constant of a value; arrays and objects have none. -/
def ofScalar : Value → Predicate
  | .boolean b => boolean b
  | .integer n => integer n
  | .float x => float x
  | .string s => string s
  | _ => null

/-- The lists in which some variables that hold arrays of single values are replaced by the constants
of the items. -/
inductive SpelledOut (session : Variables) : List Predicate → List Predicate → Prop
  | nil : SpelledOut session [] []
  | keep (p : Predicate) {items others : List Predicate} :
      SpelledOut session items others → SpelledOut session (p :: items) (p :: others)
  | spell (raw : String) {vs : List Value} {items others : List Predicate} :
      resolveVariable raw session = .array vs → (∀ v ∈ vs, v.IsScalar) →
      SpelledOut session items others →
      SpelledOut session (var raw :: items) (vs.map ofScalar ++ others)

/-- The lists of leaves that have the same entries, in any order and any number. -/
def SameEntries (items others : List Predicate) : Prop :=
  (∀ p ∈ items, p.isLeaf = true) ∧ ∀ p, p ∈ items ↔ p ∈ others

variable {session : Variables} {record : Record} {p q left : Predicate}
  {items others : List Predicate} {R : List Predicate → List Predicate → Prop}

theorem SpelledOut.refl (items : List Predicate) : SpelledOut session items items := by
  induction items with
  | nil => exact .nil
  | cons p ps ih => exact .keep p ih

/-- One variable may be spelled out anywhere in a list. -/
theorem SpelledOut.at (before after : List Predicate) {raw : String} {vs : List Value}
    (h : resolveVariable raw session = .array vs) (hvs : ∀ v ∈ vs, v.IsScalar) :
    SpelledOut session (before ++ var raw :: after) (before ++ (vs.map ofScalar ++ after)) := by
  induction before with
  | nil => exact .spell raw h hvs (.refl after)
  | cons p ps ih => exact .keep p ih

/-! ## Evaluation -/

/-- A tree evaluates alike with lists that memberships do not tell apart. -/
theorem Relisted.evaluate_eq (h : Relisted R p q)
    (hR : ∀ left items others, R items others →
      membershipHolds session record left (.list items) =
        membershipHolds session record left (.list others)) :
    p.evaluate session record = q.evaluate session record := by
  induction h with
  | same p => rfl
  | list left h => exact hR left _ _ h
  | not _ ih => rw [evaluate, evaluate, ih]
  | join op _ _ ihl ihr => rw [evaluate, evaluate, ihl, ihr]

theorem leafValue_ofScalar {v : Value} (h : v.IsScalar) :
    leafValue session record (ofScalar v) = .ok v := by
  cases v with
  | array | object => exact absurd h id
  | _ => rfl

theorem add_ofScalar {v : Value} (h : v.IsScalar) (e : Entered) :
    e.add (ofScalar v) v = ⟨e.columns, v :: e.constants⟩ := by
  cases v with
  | array | object => exact absurd h id
  | _ => rfl

/-- The constants of single values are entered one by one. -/
theorem entered_ofScalar {vs : List Value} (h : ∀ v ∈ vs, v.IsScalar) (items : List Predicate) :
    entered session record (vs.map ofScalar ++ items) =
      (entered session record items).map fun e => ⟨e.columns, vs ++ e.constants⟩ := by
  induction vs with
  | nil =>
    rw [List.map_nil, List.nil_append]
    cases entered session record items <;> rfl
  | cons v vs ih =>
    obtain ⟨hv, hvs⟩ := List.forall_mem_cons.1 h
    rw [List.map_cons, List.cons_append, entered, leafValue_ofScalar hv, ih hvs]
    cases entered session record items with
    | error e => rfl
    | ok e => exact congrArg Except.ok (add_ofScalar hv _)

/-- A variable that holds an array enters its items at once. -/
theorem entered_var {raw : String} {vs : List Value} (h : resolveVariable raw session = .array vs)
    (items : List Predicate) :
    entered session record (var raw :: items) =
      (entered session record items).map fun e => ⟨e.columns, vs ++ e.constants⟩ := by
  rw [entered, leafValue, h]
  cases entered session record items <;> rfl

theorem SpelledOut.entered_eq (h : SpelledOut session items others) :
    entered session record items = entered session record others := by
  induction h with
  | nil => rfl
  | keep p _ ih => rw [entered, entered, ih]
  | spell raw h hvs _ ih => rw [entered_var h, entered_ofScalar hvs, ih]

theorem membershipHolds_spelledOut (left : Predicate) (h : SpelledOut session items others) :
    membershipHolds session record left (.list items) =
      membershipHolds session record left (.list others) := by
  rw [membershipHolds, membershipHolds, h.entered_eq]

/-- What a list has is a matter of the values in it. -/
theorem Entered.has_congr {e f : Entered} (hc : ∀ v, v ∈ e.columns ↔ v ∈ f.columns)
    (hk : ∀ v, v ∈ e.constants ↔ v ∈ f.constants) (needle : Value) : e.has needle = f.has needle := by
  have hany : ∀ {vs ws : List Value}, (∀ v, v ∈ vs ↔ v ∈ ws) → ∀ t : Value → Bool,
      vs.any t = ws.any t := by
    intro vs ws h t
    rw [Bool.eq_iff_iff, List.any_eq_true, List.any_eq_true]
    simp only [h]
  rw [has, has, hany hc, hany hk, hany hk]

theorem membershipHolds_sameEntries (left : Predicate) (h : SameEntries items others) :
    membershipHolds session record left (.list items) =
      membershipHolds session record left (.list others) := by
  obtain ⟨hleaf, hmem⟩ := h
  have hother : ∀ p ∈ others, p.isLeaf = true := fun p hp => hleaf p ((hmem p).2 hp)
  rw [membershipHolds, membershipHolds, entered_of_isLeaf hleaf, entered_of_isLeaf hother]
  cases leafValue session record left with
  | error e => rfl
  | ok needle =>
    refine congrArg Except.ok (Entered.has_congr ?_ ?_ needle) <;>
      simp [columnValues, constantValues, hmem]

end Predicate

/-! ## Generation -/

namespace Generator

open Predicate (ofScalar Relisted SpelledOut)

variable {g : Generator} {p q : Predicate} {items others : List Predicate}
  {R : List Predicate → List Predicate → Prop}

/-- A tree has the same condition with lists that memberships do not tell apart. -/
theorem generate_relisted (h : Relisted R p q)
    (hR : ∀ left items others, R items others →
      g.membership left (.list items) = g.membership left (.list others)) :
    g.generate p = g.generate q := by
  induction h with
  | same p => rfl
  | list left h => rw [generate, generate, hR left _ _ h]
  | not _ ih => rw [generate, generate, ih]
  | join op _ _ ihl ihr => rw [generate, generate, ihl, ihr]

/-- The terms of the values that are not blank. -/
def terms (vs : List Value) : List Term := (vs.filter fun v => !v.isBlank).filterMap literal?

theorem terms_cons_of_isBlank {v : Value} (h : v.isBlank = true) (vs : List Value) :
    terms (v :: vs) = terms vs := by
  rw [terms, List.filter_cons_of_neg (by simp [h]), terms]

theorem terms_cons {v : Value} {t : Term} (h : v.isBlank = false) (ht : literal? v = some t)
    (vs : List Value) : terms (v :: vs) = t :: terms vs := by
  rw [terms, List.filter_cons_of_pos (by simp [h]), List.filterMap_cons_some ht, terms]

theorem terms_append (vs ws : List Value) : terms (vs ++ ws) = terms vs ++ terms ws := by
  rw [terms, List.filter_append, List.filterMap_append, terms, terms]

/-- Single values have terms, whichever operand holds them. -/
theorem literals_eq {vs : List Value} (h : ∀ v ∈ vs, v.IsScalar) (origin : Predicate) :
    literals origin vs = .ok (terms vs, vs.any Value.isBlank) := by
  induction vs with
  | nil => rfl
  | cons v vs ih =>
    obtain ⟨hv, hvs⟩ := List.forall_mem_cons.1 h
    obtain ⟨t, ht, -⟩ := literal?_isSome hv
    rw [literals, ih hvs, literal, ht, List.any_cons]
    cases hb : v.isBlank with
    | true =>
      rw [terms_cons_of_isBlank hb]
      rfl
    | false =>
      rw [terms_cons hb ht]
      rfl

theorem entry_ofScalar {v : Value} (h : v.IsScalar) :
    g.entry (ofScalar v) = .ok (terms [v], v.isBlank) := by
  have hl : g.entry (ofScalar v) = literals (ofScalar v) [v] := by
    cases v with
    | array | object => exact absurd h id
    | _ => rfl
  rw [hl, literals_eq (List.forall_mem_singleton.2 h), List.any_cons, List.any_nil, Bool.or_false]

theorem entry_var {raw : String} {vs : List Value}
    (h : resolveVariable raw g.session = .array vs) (hvs : ∀ v ∈ vs, v.IsScalar) :
    g.entry (.var raw) = .ok (terms vs, vs.any Value.isBlank) := by
  rw [← literals_eq hvs (.var raw)]
  simp only [entry, entryValues, valueOf?, h]
  rfl

/-- The constants of single values add their terms one by one. -/
theorem entries_ofScalar {vs : List Value} (h : ∀ v ∈ vs, v.IsScalar) (items : List Predicate) :
    g.entries (vs.map ofScalar ++ items) =
      (g.entries items).map fun e => (terms vs ++ e.1, vs.any Value.isBlank || e.2) := by
  induction vs with
  | nil =>
    rw [List.map_nil, List.nil_append]
    cases g.entries items <;> rfl
  | cons v vs ih =>
    obtain ⟨hv, hvs⟩ := List.forall_mem_cons.1 h
    have happend : terms (v :: vs) = terms [v] ++ terms vs := terms_append [v] vs
    rw [List.map_cons, List.cons_append, entries, entry_ofScalar hv, ih hvs, List.any_cons]
    cases g.entries items with
    | error e => rfl
    | ok e =>
      simp only [Except.map, happend, List.append_assoc, Bool.or_assoc]
      rfl

theorem entries_spelledOut (h : SpelledOut g.session items others) :
    g.entries items = g.entries others := by
  induction h with
  | nil => rfl
  | keep p _ ih => rw [entries, entries, ih]
  | spell raw h hvs _ ih =>
    rw [entries, entry_var h hvs, entries_ofScalar hvs, ih]
    cases g.entries _ <;> rfl

theorem membership_spelledOut (left : Predicate) (h : SpelledOut g.session items others) :
    g.membership left (.list items) = g.membership left (.list others) := by
  rw [membership, membership, entries_spelledOut h]

end Generator

/-! ## Filters -/

namespace Filter

open Predicate (Relisted SameEntries SpelledOut)

variable {session : Variables} {root other : Predicate}

/-- **A variable that holds an array means its items.**  Replacing such variables in the lists of a
tree by the constants of their items, in order, changes neither the answer for any record nor the
fragment, nor the error of either.  An answer stays the same also where the entries of lists are
reordered or repeated. -/
theorem eq_of_relisted (params : BindParams) :
    (Relisted (SpelledOut session) root other →
      (∀ record, (Filter.mk root params).evaluate session record =
        (Filter.mk other params).evaluate session record) ∧
      ∀ g : Generator, g.session = session →
        (Filter.mk root params).fragment g = (Filter.mk other params).fragment g) ∧
    (Relisted SameEntries root other → ∀ record,
      (Filter.mk root params).evaluate session record =
        (Filter.mk other params).evaluate session record) := by
  refine ⟨fun h => ⟨fun record => ?_, ?_⟩, fun h record => ?_⟩
  · exact h.evaluate_eq fun left _ _ => Predicate.membershipHolds_spelledOut left
  · rintro g rfl
    rw [fragment, fragment, Generator.fragment, Generator.fragment,
      Generator.generate_relisted h fun left _ _ => Generator.membership_spelledOut left]
  · exact h.evaluate_eq fun left _ _ => Predicate.membershipHolds_sameEntries left

/-- `not [a] in (items)` -/
def excludingTree (items : List Predicate) : Predicate := .not (.isIn (.field "a") (.list items))

def taggedSession : Variables :=
  Table.ofList [("tags", .array [.string "", .integer 3, .null])]

theorem resolve_tags :
    resolveVariable "tags" taggedSession = .array [.string "", .integer 3, .null] := by
  have hname : (VariableRef.ofRaw "tags").name = "tags" := by decide
  rw [resolveVariable, VariableRef.resolve, hname]
  rfl

/-- An array with blank items among other entries, in a tree and with its list in another order. -/
theorem eq_of_relisted_excludingTree :
    (∀ record,
      (ofPredicate (excludingTree [.string "x", .var "tags", .field "b"])).evaluate
          taggedSession record =
        (ofPredicate (excludingTree
          [.string "x", .string "", .integer 3, .null, .field "b"])).evaluate
          taggedSession record) ∧
    (∀ g : Generator, g.session = taggedSession →
      (ofPredicate (excludingTree [.string "x", .var "tags", .field "b"])).fragment g =
        (ofPredicate (excludingTree
          [.string "x", .string "", .integer 3, .null, .field "b"])).fragment g) ∧
    ∀ record,
      (ofPredicate (excludingTree [.string "x", .var "tags", .field "b"])).evaluate
          taggedSession record =
        (ofPredicate (excludingTree
          [.field "b", .string "x", .var "tags", .string "x"])).evaluate taggedSession record := by
  have hspell : Relisted (SpelledOut taggedSession)
      (excludingTree [.string "x", .var "tags", .field "b"])
      (excludingTree [.string "x", .string "", .integer 3, .null, .field "b"]) := by
    refine .not (.list _ (.at [.string "x"] [.field "b"] resolve_tags ?_))
    simp [Value.IsScalar]
  have hsame : Relisted SameEntries (excludingTree [.string "x", .var "tags", .field "b"])
      (excludingTree [.field "b", .string "x", .var "tags", .string "x"]) := by
    refine .not (.list _ ⟨by decide, fun p => ?_⟩)
    simp only [List.mem_cons, List.not_mem_nil, or_false]
    grind
  obtain ⟨heval, hfragment⟩ := (eq_of_relisted .empty).1 hspell
  exact ⟨heval, hfragment, (eq_of_relisted .empty).2 hsame⟩

end Filter

end RecordFilter
