import RecordFilter.Proofs.Dependence
import RecordFilter.Proofs.Results

/-!
# Two dialects, one outcome

The dialects differ in the text of a fragment only.  Where the provider of spatial clauses gives the
same parameters or the same error in both, a filter has a fragment in one of them if and only if it
has one in the other, with the same parameters, and else the same error.

    (g.inDialect d).generate p and g.generate p agree up to their conditions  (map_params_generate)
-/

namespace RecordFilter

/-- Whether a provider answers with the same parameters, or the same error, in every dialect. -/
def GeometryProvider.DialectFree (provider : GeometryProvider) : Prop :=
  ∀ (request : SpatialRequest) (d : Dialect),
    (provider { request with dialect := d }).map Fragment.params =
      (provider request).map Fragment.params

namespace Generator

/-- The generator for another dialect. -/
def inDialect (g : Generator) (d : Dialect) : Generator := { g with dialect := d }

variable {g : Generator} {d : Dialect} {p left right : Predicate}

/-! ## Conditions -/

/-- The dialects take different branches to one condition. -/
theorem comparison_inDialect (op : CompareOp) (left right : Predicate) :
    (g.inDialect d).comparison op left right = g.comparison op left right := by
  have hterm : ∀ q, (g.inDialect d).term q = g.term q := fun _ =>
    term_congr (fun _ _ => rfl) fun _ _ => rfl
  rw [comparison_eq, comparison_eq, hterm, hterm]

theorem membership_inDialect (left right : Predicate) :
    (g.inDialect d).membership left right = g.membership left right :=
  membership_congr (fun _ _ => rfl) (fun _ _ => rfl) (fun _ _ => rfl) fun _ _ => rfl

/-- Names are written alike in all dialects. -/
theorem text_column (name : String) (d d' : Dialect) :
    (g.column name).text d = (g.column name).text d' := by
  unfold column
  split <;> rfl

theorem map_params_spatial (h : ∀ provider ∈ g.geometry, GeometryProvider.DialectFree provider)
    (op : SpatialOp) (left right : Predicate) :
    ((g.inDialect d).spatial op left right).map Fragment.params =
      (g.spatial op left right).map Fragment.params := by
  have hgeometry : (g.inDialect d).geometry = g.geometry := rfl
  rw [spatial, spatial, hgeometry]
  cases hg : g.geometry with
  | none => rfl
  | some provider =>
    cases spatialSides? left right with
    | none => rfl
    | some sides =>
      obtain ⟨name, payload⟩ := sides
      show (provider ⟨op, g.table, (g.column name).text d, payload, d⟩).map _ =
        (provider ⟨op, g.table, (g.column name).text g.dialect, payload, g.dialect⟩).map _
      rw [text_column name d g.dialect]
      exact h provider hg ⟨op, g.table, (g.column name).text g.dialect, payload, g.dialect⟩ d

/-- A tree has a condition in one dialect if it has one in another, with the same parameters, and
else the same error. -/
theorem map_params_generate (h : ∀ provider ∈ g.geometry, GeometryProvider.DialectFree provider)
    (p : Predicate) :
    ((g.inDialect d).generate p).map Prod.snd = (g.generate p).map Prod.snd := by
  induction p using Predicate.operandInduction with
  | step p ih =>
    cases p with
    | not inner =>
      rw [generate, generate]
      exact map_bind_congr (ih inner (by simp [Predicate.operands])) fun _ _ heq =>
        congrArg Except.ok heq
    | join op left right =>
      rw [generate, generate]
      refine map_bind_congr (ih left (by simp [Predicate.operands])) ?_
      rintro ⟨c, params⟩ ⟨c', params'⟩ rfl
      refine map_bind_congr (ih right (by simp [Predicate.operands])) ?_
      rintro ⟨e, others⟩ ⟨e', others'⟩ rfl
      exact map_bind_congr (k := id) rfl fun _ _ heq => congrArg Except.ok heq
    | compare op left right => rw [generate, generate, comparison_inDialect]
    | isIn left right => rw [generate, generate, membership_inDialect]
    | spatial op left right =>
      rw [generate, generate]
      exact map_bind_congr (map_params_spatial h op left right) fun _ _ heq =>
        congrArg Except.ok heq
    | _ => rfl

theorem map_params_fragment (h : ∀ provider ∈ g.geometry, GeometryProvider.DialectFree provider)
    (p : Predicate) :
    ((g.inDialect d).fragment p).map Fragment.params = (g.fragment p).map Fragment.params := by
  rw [fragment, fragment]
  exact map_bind_congr (map_params_generate h p) fun _ _ heq => congrArg Except.ok heq

end Generator

/-! ## Filters -/

namespace Filter

variable {f : Filter} {g : Generator}

theorem map_params_fragment (h : ∀ provider ∈ g.geometry, GeometryProvider.DialectFree provider)
    (d : Dialect) :
    (f.fragment (g.inDialect d)).map Fragment.params = (f.fragment g).map Fragment.params := by
  rw [fragment, fragment]
  refine map_bind_congr (Generator.map_params_fragment h f.root) ?_
  rintro ⟨text, params⟩ ⟨text', params'⟩ rfl
  exact map_bind_congr (k := id) rfl fun _ _ heq => congrArg Except.ok heq

/-- **The dialects succeed and fail together.**  With a provider that gives the same parameters or the
same error in both dialects, a filter has a fragment in one dialect if and only if it has one in the
other, with the same parameters, and it fails in one with an error if and only if it fails with the
same error in the other. -/
theorem fragment_sql_iff_cql
    (h : ∀ provider ∈ g.geometry, GeometryProvider.DialectFree provider) :
    (∀ params, (∃ text, f.fragment (g.inDialect .sql) = .ok ⟨text, params⟩) ↔
      ∃ text, f.fragment (g.inDialect .cql) = .ok ⟨text, params⟩) ∧
    ∀ e, f.fragment (g.inDialect .sql) = .error e ↔ f.fragment (g.inDialect .cql) = .error e := by
  have hmap := fun d => map_params_fragment (f := f) h d
  constructor
  · intro params
    have hok : ∀ d, (∃ text, f.fragment (g.inDialect d) = .ok ⟨text, params⟩) ↔
        (f.fragment g).map Fragment.params = .ok params := by
      intro d
      rw [← hmap d, map_eq_ok]
      constructor
      · rintro ⟨text, hmade⟩
        exact ⟨_, hmade, rfl⟩
      · rintro ⟨made, hmade, rfl⟩
        exact ⟨made.text, hmade⟩
    rw [hok, hok]
  · intro e
    rw [← map_eq_error (f := Fragment.params), hmap, ← hmap .cql, map_eq_error]

/-- A provider that names the dialect in its clauses. -/
def naming : GeometryProvider := fun request =>
  .ok ⟨request.dialect.name, Table.ofList [("g", .ofJson request.geometry)]⟩

/-- `[a] ilike 'X%' & intersects([b], 1)`, with a parameter of its own. -/
def namedFilter (n : Int64) : Filter where
  root := .join .and (.compare .ilike (.field "a") (.string "X%"))
    (.spatial .intersects (.field "b") (.geometry (.integer 1)))
  params := Table.ofList [("g", .integer n)]

/-- The texts differ, also in the clause of the provider; a parameter that is bound to another value
is an error in both. -/
theorem fragment_sql_iff_cql_namedFilter :
    GeometryProvider.DialectFree naming ∧
      (∃ text, (namedFilter 1).fragment
        (Generator.inDialect ⟨"t", .empty, .empty, some naming, .sql⟩ .cql) =
          .ok ⟨text, Table.ofList [("g", .integer 1)]⟩) ∧
      (namedFilter 2).fragment
        (Generator.inDialect ⟨"t", .empty, .empty, some naming, .sql⟩ .cql) =
          .error (.paramConflict "g") := by
  have hfree : GeometryProvider.DialectFree naming := fun _ _ => rfl
  have hprovider : ∀ provider ∈ some naming, GeometryProvider.DialectFree provider :=
    fun provider hp => Option.some.inj hp ▸ hfree
  refine ⟨hfree, ((fragment_sql_iff_cql hprovider).1 _).1 ⟨_, rfl⟩,
    ((fragment_sql_iff_cql hprovider).2 _).1 rfl⟩

end Filter

end RecordFilter
