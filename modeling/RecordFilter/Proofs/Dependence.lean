import RecordFilter.Filter
import RecordFilter.Proofs.Parts

/-!
# What a filter depends on

Of a record a filter reads the fields that its tree names, and of a session the variables, by their
names without blanks and defaults.  Whatever else differs, the answer is the same, and so is the
error.  The same holds of the fragment of a tree without spatial tests and the columns of its
fields; the table and the provider of spatial clauses do not matter to it.

    SameFields p record.property record'.property → SameVariables p session session' →
      p.evaluate session record = p.evaluate session' record'               (evaluate_congr)
    SameFields p g.fieldMap.get? g'.fieldMap.get? → SameVariables p g.session g'.session →
      g.generate p = g'.generate p                                          (generate_congr)
-/

namespace RecordFilter

namespace Predicate

/-! ## Agreement on what a tree names -/

/-- Whether two functions agree on the names of the fields in a tree. -/
def SameFields {α : Type} (p : Predicate) (f f' : String → α) : Prop :=
  ∀ name ∈ p.fieldNames, f name = f' name

/-- Whether two sessions agree on the variables in a tree: each is set to the same value in both, or
in neither. -/
def SameVariables (p : Predicate) (session session' : Variables) : Prop :=
  ∀ raw, (var raw).Within p →
    session.get? (VariableRef.ofRaw raw).name = session'.get? (VariableRef.ofRaw raw).name

/-- Whether no spatial test stands in a tree. -/
def NoSpatial (p : Predicate) : Prop := ∀ op left right, ¬(spatial op left right).Within p

section

variable {α : Type} {f f' : String → α} {p q : Predicate} {session session' : Variables}

theorem SameFields.operand (h : p.SameFields f f') (hq : q ∈ p.operands) : q.SameFields f f' :=
  fun name hn => h name (mem_fieldNames.2 (.operand hq (mem_fieldNames.1 hn)))

theorem SameFields.field {name : String} (h : (field name).SameFields f f') : f name = f' name :=
  h name (mem_fieldNames.2 .self)

theorem SameVariables.operand (h : p.SameVariables session session') (hq : q ∈ p.operands) :
    q.SameVariables session session' :=
  fun raw hr => h raw (.operand hq hr)

theorem NoSpatial.operand (h : p.NoSpatial) (hq : q ∈ p.operands) : q.NoSpatial :=
  fun op left right hs => h op left right (.operand hq hs)

/-- The value of a variable depends on what is set under its name. -/
theorem SameVariables.resolveVariable_eq {raw : String}
    (h : (var raw).SameVariables session session') :
    resolveVariable raw session = resolveVariable raw session' := by
  unfold resolveVariable VariableRef.resolve
  rw [h raw .self]

end

/-! ## Evaluation -/

section

variable {session session' : Variables} {record record' : Record} {p left right : Predicate}
  {items : List Predicate}

theorem leafValue_congr (hr : p.SameFields record.property record'.property)
    (hs : p.SameVariables session session') :
    leafValue session record p = leafValue session' record' p := by
  cases p with
  | field name => rw [leafValue, leafValue, hr.field]
  | var raw => rw [leafValue, leafValue, hs.resolveVariable_eq]
  | _ => rfl

theorem entered_congr (hr : ∀ p ∈ items, p.SameFields record.property record'.property)
    (hs : ∀ p ∈ items, p.SameVariables session session') :
    entered session record items = entered session' record' items := by
  induction items with
  | nil => rfl
  | cons p ps ih =>
    obtain ⟨hrp, hrps⟩ := List.forall_mem_cons.1 hr
    obtain ⟨hsp, hsps⟩ := List.forall_mem_cons.1 hs
    rw [entered, entered, leafValue_congr hrp hsp, ih hrps hsps]

theorem membershipHolds_congr (hrl : left.SameFields record.property record'.property)
    (hsl : left.SameVariables session session')
    (hrr : right.SameFields record.property record'.property)
    (hsr : right.SameVariables session session') :
    membershipHolds session record left right = membershipHolds session' record' left right := by
  cases right with
  | list items =>
    have hitems : entered session record items = entered session' record' items :=
      entered_congr (fun _ hp => hrr.operand hp) (fun _ hp => hsr.operand hp)
    rw [membershipHolds, membershipHolds, leafValue_congr hrl hsl, hitems]
  | _ => rfl

/-- Evaluation reads what a tree names. -/
theorem evaluate_congr (hr : p.SameFields record.property record'.property)
    (hs : p.SameVariables session session') :
    p.evaluate session record = p.evaluate session' record' := by
  induction p using operandInduction with
  | step p ih =>
    have hof : ∀ q ∈ p.operands, q.evaluate session record = q.evaluate session' record' :=
      fun q hq => ih q hq (hr.operand hq) (hs.operand hq)
    have hleaf : ∀ q ∈ p.operands, leafValue session record q = leafValue session' record' q :=
      fun q hq => leafValue_congr (hr.operand hq) (hs.operand hq)
    cases p with
    | not inner => rw [evaluate, evaluate, hof inner (by simp [operands])]
    | join op left right =>
      rw [evaluate, evaluate, hof left (by simp [operands]), hof right (by simp [operands])]
    | compare op left right =>
      rw [evaluate, evaluate, hleaf left (by simp [operands]), hleaf right (by simp [operands])]
    | isIn left candidates =>
      have hl : left ∈ (isIn left candidates).operands := by simp [operands]
      have hc : candidates ∈ (isIn left candidates).operands := by simp [operands]
      rw [evaluate, evaluate]
      exact membershipHolds_congr (hr.operand hl) (hs.operand hl) (hr.operand hc) (hs.operand hc)
    | boolean b => rfl
    | _ => simp only [evaluate, leafValue_congr hr hs]

end

end Predicate

/-! ## Generation -/

namespace Generator

open Predicate (SameFields SameVariables NoSpatial)

variable {g g' : Generator} {p left right : Predicate} {items : List Predicate}

theorem column_congr {name : String} (h : g.fieldMap.get? name = g'.fieldMap.get? name) :
    g.column name = g'.column name := by
  rw [column, column, h]

theorem valueOf?_congr (hs : p.SameVariables g.session g'.session) :
    g.valueOf? p = g'.valueOf? p := by
  cases p with
  | var raw => rw [valueOf?, valueOf?, hs.resolveVariable_eq]
  | _ => rfl

theorem term_congr (hf : p.SameFields g.fieldMap.get? g'.fieldMap.get?)
    (hs : p.SameVariables g.session g'.session) : g.term p = g'.term p := by
  have hv := valueOf?_congr hs
  cases p with
  | field name => rw [term, term, column_congr hf.field]
  | _ => simp only [term, hv]

theorem entry_congr (hf : p.SameFields g.fieldMap.get? g'.fieldMap.get?)
    (hs : p.SameVariables g.session g'.session) : g.entry p = g'.entry p := by
  have hv := valueOf?_congr hs
  cases p with
  | field name => rw [entry, entry, column_congr hf.field]
  | _ => simp only [entry, entryValues, hv]

theorem entries_congr (hf : ∀ p ∈ items, p.SameFields g.fieldMap.get? g'.fieldMap.get?)
    (hs : ∀ p ∈ items, p.SameVariables g.session g'.session) :
    g.entries items = g'.entries items := by
  induction items with
  | nil => rfl
  | cons p ps ih =>
    obtain ⟨hfp, hfps⟩ := List.forall_mem_cons.1 hf
    obtain ⟨hsp, hsps⟩ := List.forall_mem_cons.1 hs
    rw [entries, entries, entry_congr hfp hsp, ih hfps hsps]

theorem membership_congr (hfl : left.SameFields g.fieldMap.get? g'.fieldMap.get?)
    (hsl : left.SameVariables g.session g'.session)
    (hfr : right.SameFields g.fieldMap.get? g'.fieldMap.get?)
    (hsr : right.SameVariables g.session g'.session) :
    g.membership left right = g'.membership left right := by
  cases right with
  | list items =>
    have hitems : g.entries items = g'.entries items :=
      entries_congr (fun _ hp => hfr.operand hp) (fun _ hp => hsr.operand hp)
    rw [membership, membership, term_congr hfl hsl, hitems]
  | _ => rfl

/-- The condition of a tree without spatial tests reads what the tree names. -/
theorem generate_congr (hf : p.SameFields g.fieldMap.get? g'.fieldMap.get?)
    (hs : p.SameVariables g.session g'.session) (hn : p.NoSpatial) :
    g.generate p = g'.generate p := by
  induction p using Predicate.operandInduction with
  | step p ih =>
    have hof : ∀ q ∈ p.operands, g.generate q = g'.generate q :=
      fun q hq => ih q hq (hf.operand hq) (hs.operand hq) (hn.operand hq)
    cases p with
    | not inner => rw [generate, generate, hof inner (by simp [Predicate.operands])]
    | join op left right =>
      rw [generate, generate, hof left (by simp [Predicate.operands]),
        hof right (by simp [Predicate.operands])]
    | compare op left right =>
      have hl : left ∈ (Predicate.compare op left right).operands := by simp [Predicate.operands]
      have hr : right ∈ (Predicate.compare op left right).operands := by simp [Predicate.operands]
      rw [generate, generate, comparison_eq, comparison_eq, term_congr (hf.operand hl) (hs.operand hl),
        term_congr (hf.operand hr) (hs.operand hr)]
    | isIn left candidates =>
      have hl : left ∈ (Predicate.isIn left candidates).operands := by simp [Predicate.operands]
      have hc : candidates ∈ (Predicate.isIn left candidates).operands := by
        simp [Predicate.operands]
      rw [generate, generate,
        membership_congr (hf.operand hl) (hs.operand hl) (hf.operand hc) (hs.operand hc)]
    | spatial op left right => exact absurd .self (hn op left right)
    | _ => rfl

theorem fragment_congr (hd : g.dialect = g'.dialect)
    (hf : p.SameFields g.fieldMap.get? g'.fieldMap.get?)
    (hs : p.SameVariables g.session g'.session) (hn : p.NoSpatial) :
    g.fragment p = g'.fragment p := by
  rw [fragment, fragment, generate_congr hf hs hn, hd]

end Generator

/-! ## Filters -/

namespace Filter

/-- **A filter depends on what it names.**  Records that have the same values in the fields of the
tree and sessions that agree on its variables give the same answer or the same error.  Without
spatial tests, generators of one dialect that agree on the columns of these fields and on these
variables make the same fragment or fail alike, with any table and any provider. -/
theorem eq_of_same_names (f : Filter) :
    (∀ session session' record record',
      f.root.SameFields (Record.property record) (Record.property record') →
      f.root.SameVariables session session' →
      f.evaluate session record = f.evaluate session' record') ∧
    ∀ g g' : Generator, f.root.NoSpatial → g.dialect = g'.dialect →
      f.root.SameFields g.fieldMap.get? g'.fieldMap.get? →
      f.root.SameVariables g.session g'.session →
      g.fragment f.root = g'.fragment f.root ∧ f.fragment g = f.fragment g' := by
  constructor
  · intro session session' record record' hr hs
    exact Predicate.evaluate_congr hr hs
  · intro g g' hn hd hf hs
    have hroot := Generator.fragment_congr hd hf hs hn
    refine ⟨hroot, ?_⟩
    rw [fragment, fragment, hroot]

/-- `[a] in ({ v :1}, [b])` -/
def namingTree : Predicate := .isIn (.field "a") (.list [.var " v :1", .field "b"])

theorem within_namingTree {q : Predicate} (h : q.Within namingTree) :
    q = namingTree ∨ q = .field "a" ∨ q = .list [.var " v :1", .field "b"] ∨ q = .var " v :1" ∨
      q = .field "b" := by
  have hpair : ∀ {r a b : Predicate}, r ∈ [a, b] → r = a ∨ r = b := by simp
  rcases Predicate.within_iff.1 h with rfl | ⟨r, hr, h⟩
  · simp
  · rcases hpair hr with rfl | rfl
    · simp [Predicate.eq_of_within rfl h]
    · rcases Predicate.within_iff.1 h with rfl | ⟨r, hr, h⟩
      · simp
      · rcases hpair hr with rfl | rfl
        · simp [Predicate.eq_of_within rfl h]
        · simp [Predicate.eq_of_within rfl h]

theorem sameVariables_namingTree {session session' : Variables}
    (h : session.get? "v" = session'.get? "v") : namingTree.SameVariables session session' := by
  intro raw hr
  have hraw : raw = " v :1" := by simpa [namingTree] using within_namingTree hr
  have hname : (VariableRef.ofRaw " v :1").name = "v" := by decide
  rw [hraw, hname, h]

theorem noSpatial_namingTree : namingTree.NoSpatial := by
  intro op left right hs
  simpa [namingTree] using within_namingTree hs

/-- A generator for a table of its own, with a column for a field that is not in `namingTree`. -/
def namingGenerator (table : String) (provider : Option GeometryProvider) (session : Variables) :
    Generator :=
  ⟨table, Table.ofList [("c", ⟨table ++ ".c", none⟩)], session, provider, .cql⟩

/-- A property that is null in one record and missing in the other, a property and a variable that
the tree does not name, another table and another provider: none of them matters. -/
theorem eq_of_same_names_namingTree :
    namingTree.fieldNames = ["a", "b"] ∧
      (ofPredicate namingTree).evaluate (Table.ofList [("v", .integer 1)])
          (Table.ofList [("a", .integer 1), ("b", .null)]) =
        (ofPredicate namingTree).evaluate (Table.ofList [("u", .null), ("v", .integer 1)])
          (Table.ofList [("a", .integer 1), ("c", .integer 2)]) ∧
      (ofPredicate namingTree).fragment
          (namingGenerator "r" none (Table.ofList [("v", .integer 1)])) =
        (ofPredicate namingTree).fragment
          (namingGenerator "s" (some fun _ => .error (.geometry "none"))
            (Table.ofList [("u", .null), ("v", .integer 1)])) := by
  have hnames : namingTree.fieldNames = ["a", "b"] := by decide
  -- both names have to be looked at, each in two tables
  have hsame : ∀ {α : Type} {f f' : String → α}, f "a" = f' "a" → f "b" = f' "b" →
      namingTree.SameFields f f' := by
    intro α f f' ha hb
    rw [Predicate.SameFields, hnames]
    exact List.forall_mem_cons.2 ⟨ha, List.forall_mem_singleton.2 hb⟩
  obtain ⟨heval, hfragment⟩ := eq_of_same_names (ofPredicate namingTree)
  refine ⟨hnames, heval _ _ _ _ (hsame rfl rfl) (sameVariables_namingTree rfl), ?_⟩
  exact (hfragment _ _ noSpatial_namingTree rfl (hsame rfl rfl) (sameVariables_namingTree rfl)).2

end Filter

end RecordFilter
