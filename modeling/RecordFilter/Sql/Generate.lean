import RecordFilter.Sql.Condition
import RecordFilter.Sql.Fragment
import RecordFilter.Variable

/-!
# From predicates to conditions

`Generator.generate` turns a predicate into a condition and the parameters of
its spatial tests.  A provider of spatial clauses is told the dialect, and a
dialect that folds only the column of a match without regard to case takes the
pattern in a way of its own; the condition is the same in every dialect until it
is written.
-/

namespace RecordFilter

/-- What a provider of spatial clauses is asked for. -/
structure SpatialRequest where
  op : SpatialOp
  table : String
  column : String
  geometry : Json
  dialect : Dialect

/-- A provider of spatial clauses. -/
abbrev GeometryProvider := SpatialRequest → Except SqlError Fragment

/-- What a condition depends on besides the predicate. -/
structure Generator where
  table : String
  fieldMap : FieldMap
  session : Variables
  geometry : Option GeometryProvider
  dialect : Dialect

namespace Generator

/-! ## Terms -/

/-- The column of a field. -/
def column (g : Generator) (name : String) : Term :=
  match g.fieldMap.get? name with
  | some t => .column t.target t.castType
  | none => .column name none

/-- The value of a constant or a variable. -/
def valueOf? (g : Generator) : Predicate → Option Value
  | .var raw => some (resolveVariable raw g.session)
  | .string s => some (.string s)
  | .integer n => some (.integer n)
  | .float x => some (.float x)
  | .boolean b => some (.boolean b)
  | .null => some .null
  | _ => none

/-- A single value as a term; a number that is not finite is missing. -/
def literal? : Value → Option Term
  | .null => some .null
  | .boolean b => some (.boolean b)
  | .integer n => some (.integer n)
  | .float (.finite negative m) => some (.number negative m)
  | .float _ => some .null
  | .string s => some (.string s)
  | .array _ => none
  | .object _ => none

/-- A value as a term, or the operand that holds it as the culprit. -/
def literal (origin : Predicate) (v : Value) : Except SqlError Term :=
  match literal? v with
  | some t => .ok t
  | none => .error (.notSingle origin.text)

/-- A leaf as a term. -/
def term (g : Generator) (p : Predicate) : Except SqlError Term :=
  match p with
  | .field name => .ok (g.column name)
  | p =>
    match g.valueOf? p with
    | some v => literal p v
    | none => .error (.notSingle p.text)

/-! ## Conditions without parameters -/

/-- The condition of a comparison of two terms; equality with a missing constant is a test of its own. -/
def compared (op : CompareOp) (l r : Term) : Condition :=
  match op, r with
  | .equal, .null => .missing l
  | .notEqual, .null => .present l
  | op, r => .compare op l r

theorem compared_of_ne_null {op : CompareOp} {l r : Term} (h : r ≠ .null) :
    compared op l r = .compare op l r := by
  unfold compared
  split
  · exact absurd rfl h
  · exact absurd rfl h
  · rfl

/-- A comparison.  Where the dialect folds only the column of a match without regard to case, a pattern
that is a constant is taken as it is, to be folded when it is written. -/
def comparison (g : Generator) (op : CompareOp) (left right : Predicate) :
    Except SqlError Condition := do
  let l ← g.term left
  match op, g.dialect with
  | .ilike, .cql =>
    match g.valueOf? right with
    | some (.string pattern) => return .compare .ilike l (.string pattern)
    | _ => return .compare .ilike l (← g.term right)
  | .ilike, .sql => return .compare .ilike l (← g.term right)
  | .like, _ => return .compare .like l (← g.term right)
  | op, _ => return compared op l (← g.term right)

theorem term_of_valueOf? {g : Generator} {p : Predicate} {v : Value} (h : g.valueOf? p = some v) :
    g.term p = literal p v := by
  cases p with
  | field => cases h
  | _ => simp only [term, h]

/-- Every dialect makes the condition of the two terms: a constant pattern is its own term, and taking
it cannot fail. -/
theorem comparison_eq (g : Generator) (op : CompareOp) (left right : Predicate) :
    g.comparison op left right = do
      let l ← g.term left
      let r ← g.term right
      return compared op l r := by
  unfold comparison
  cases g.term left with
  | error e => rfl
  | ok l =>
    cases op with
    | ilike =>
      cases g.dialect with
      | sql => rfl
      | cql =>
        cases hv : g.valueOf? right with
        | none => rfl
        | some v =>
          cases v with
          | string pattern =>
            rw [term_of_valueOf? hv]
            rfl
          | _ => rfl
    | _ => rfl

theorem comparison_of_terms {g : Generator} {op : CompareOp} {left right : Predicate} {l r : Term}
    (hl : g.term left = .ok l) (hr : g.term right = .ok r) :
    g.comparison op left right = .ok (compared op l r) := by
  rw [comparison_eq, hl, hr]
  rfl

/-- The terms of values that are not blank, and whether some are blank. -/
def literals (origin : Predicate) : List Value → Except SqlError (List Term × Bool)
  | [] => .ok ([], false)
  | v :: vs => do
    if v.isBlank then
      let (ts, _) ← literals origin vs
      return (ts, true)
    else
      let t ← literal origin v
      let (ts, blank) ← literals origin vs
      return (t :: ts, blank)

/-- The values that an entry of a list stands for; a variable that holds an array is spelled out. -/
def entryValues (g : Generator) (p : Predicate) : Except SqlError (List Value) :=
  match p, g.valueOf? p with
  | .var _, some (.array vs) => .ok vs
  | _, some v => .ok [v]
  | p, none => .error (.notSingle p.text)

/-- The terms of an entry of a list, and whether it is blank. -/
def entry (g : Generator) (p : Predicate) : Except SqlError (List Term × Bool) :=
  match p with
  | .field name => .ok ([g.column name], false)
  | p => do
    let vs ← g.entryValues p
    literals p vs

/-- The terms of the entries of a list, and whether some are blank. -/
def entries (g : Generator) : List Predicate → Except SqlError (List Term × Bool)
  | [] => .ok ([], false)
  | p :: ps => do
    let (ts, blank) ← g.entry p
    let (us, blanks) ← g.entries ps
    return (ts ++ us, blank || blanks)

def membership (g : Generator) (left candidates : Predicate) : Except SqlError Condition :=
  match candidates with
  | .list items => do
    let l ← g.term left
    let (ts, blank) ← g.entries items
    return .oneOf l ts blank
  | p => .error (.unsupported p.kind p.value)

/-! ## Spatial tests -/

/-- The field and the geometry of a spatial test, in either order. -/
def spatialSides? : Predicate → Predicate → Option (String × Json)
  | .field name, .geometry payload => some (name, payload)
  | .geometry payload, .field name => some (name, payload)
  | _, _ => none

/-- The clause that the provider makes of a spatial test. -/
def spatial (g : Generator) (op : SpatialOp) (left right : Predicate) : Except SqlError Fragment :=
  match g.geometry with
  | none => .error (.unsupported .spatial op.name)
  | some provider =>
    match spatialSides? left right with
    | some (name, payload) =>
      provider ⟨op, g.table, (g.column name).text g.dialect, payload, g.dialect⟩
    | none =>
      .error (.unsupported .spatial
        (op.name ++ "(" ++ left.kind.name ++ ", " ++ right.kind.name ++ ")"))

/-! ## All conditions -/

/-- The condition of a predicate, and its parameters. -/
def generate (g : Generator) : Predicate → Except SqlError (Condition × BindParams)
  | .not inner => do
    let (c, params) ← g.generate inner
    return (.not c, params)
  | .join op left right => do
    let (c, params) ← g.generate left
    let (d, others) ← g.generate right
    let merged ← params.merge others
    return (.join op c d, merged)
  | .compare op left right => do
    let c ← g.comparison op left right
    return (c, .empty)
  | .isIn left candidates => do
    let c ← g.membership left candidates
    return (c, .empty)
  | .spatial op left right => do
    let f ← g.spatial op left right
    return (.verbatim f.text, f.params)
  | .boolean b => .ok (.constant b, .empty)
  | p => .error (.unsupported p.kind p.value)

/-- The fragment of a predicate. -/
def fragment (g : Generator) (p : Predicate) : Except SqlError Fragment := do
  let (c, params) ← g.generate p
  return ⟨c.text g.dialect, params⟩

end Generator

end RecordFilter
