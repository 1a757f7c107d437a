import RecordFilter.Filter
import RecordFilter.Proofs.Parts
import RecordFilter.Proofs.Results
import RecordFilter.Proofs.Value.Equality

/-!
# Parameters of fragments

Every spatial test brings a table of parameters, and so does the filter.  Tables that give no name
different values are merged to their union, wherever in the tree they come from; if two of them
differ on a name, the fragment fails with such a name.

    s.merge t = .ok u ↔ s.Agree t ∧ ∀ name, u.get? name = (s.get? name).or (t.get? name)
                                                                          (merge_eq_ok_iff)
    g.generate p = .ok (c, params) → (g.tables p).Pairwise Agree ∧ IsUnion params (g.tables p)
                                                                          (union_of_generate)
-/

namespace RecordFilter

namespace BindParams

/-! ## Two tables -/

/-- Whether two tables give no name different values. -/
def Agree (s t : BindParams) : Prop :=
  ∀ name v w, s.get? name = some v → t.get? name = some w → v.same w = true

/-- Whether two tables give a name different values. -/
def Differ (name : String) (s t : BindParams) : Prop :=
  ∃ v w, s.get? name = some v ∧ t.get? name = some w ∧ v.same w = false

theorem agree_iff {s t : BindParams} : s.Agree t ↔ ∀ name, ¬Differ name s t := by
  constructor
  · rintro h name ⟨v, w, hv, hw, hvw⟩
    rw [h name v w hv hw] at hvw
    cases hvw
  · intro h name v w hv hw
    by_contra hvw
    exact h name ⟨v, w, hv, hw, Bool.eq_false_iff.2 hvw⟩

section

variable {name k : String} {v : Value} {s t u : BindParams} {es : List (String × Value)}
  {e : SqlError}

theorem get?_cons : Entries.get? name ((k, v) :: es) =
    if name = k then some v else Entries.get? name es := by
  rw [Entries.get?]
  simp only [eq_comm]

/-- A name that is bound already keeps its value, which has to be the same; another one is added. -/
theorem union_of_bind (h : s.bind k v = .ok u) :
    (∀ name, u.get? name = (s.get? name).or (if name = k then some v else none)) ∧
      ∀ w, s.get? k = some w → w.same v = true := by
  unfold bind at h
  split at h
  · rename_i w hw
    split at h
    · rename_i hwv
      cases h
      constructor
      · intro name
        by_cases hname : name = k
        · rw [hname, hw]
          rfl
        · rw [if_neg hname, Option.or_none]
      · intro w' hw'
        cases hw.symm.trans hw'
        exact hwv
    · cases h
  · rename_i hnone
    cases h
    constructor
    · intro name
      rw [Table.get?_insert]
      by_cases hname : name = k
      · rw [if_pos hname, if_pos hname, hname, hnone]
        rfl
      · rw [if_neg hname, if_neg hname, Option.or_none]
    · intro w hw
      cases hnone.symm.trans hw

theorem bind_eq_error (h : s.bind k v = .error e) :
    ∃ w, e = .paramConflict k ∧ s.get? k = some w ∧ w.same v = false := by
  unfold bind at h
  split at h
  · rename_i w hw
    split at h
    · cases h
    · rename_i hwv
      cases h
      exact ⟨w, rfl, hw, Bool.eq_false_iff.2 hwv⟩
  · cases h

/-- What was bound first stays; what is added says the same or is new. -/
theorem union_of_bindAll (h : s.bindAll es = .ok u) :
    (∀ name, u.get? name = (s.get? name).or (Entries.get? name es)) ∧
      ∀ name v w, s.get? name = some v → Entries.get? name es = some w → v.same w = true := by
  induction es generalizing s with
  | nil =>
    cases h
    exact ⟨fun name => (Option.or_none ..).symm, nofun⟩
  | cons entry es ih =>
    obtain ⟨k, v⟩ := entry
    rw [bindAll] at h
    obtain ⟨s', hs', h⟩ := RecordFilter.bind_eq_ok.1 h
    obtain ⟨hbound, hk⟩ := union_of_bind hs'
    obtain ⟨hunion, hsame⟩ := ih h
    constructor
    · intro name
      rw [hunion, hbound, Option.or_assoc, get?_cons]
      by_cases hname : name = k
      · rw [if_pos hname, if_pos hname]
        rfl
      · rw [if_neg hname, if_neg hname]
        rfl
    · intro name x y hx hy
      rw [get?_cons] at hy
      by_cases hname : name = k
      · rw [if_pos hname] at hy
        cases hy
        exact hk x (hname ▸ hx)
      · rw [if_neg hname] at hy
        refine hsame name x y ?_ hy
        rw [hbound, hx]
        rfl

/-- Whether a table and some entries give a name different values. -/
def Clash (name : String) (s : BindParams) (es : List (String × Value)) : Prop :=
  ∃ v w, s.get? name = some v ∧ Entries.get? name es = some w ∧ v.same w = false

theorem clash_cons : Clash name s ((k, v) :: es) ↔
    name = k ∧ (∃ w, s.get? k = some w ∧ w.same v = false) ∨ name ≠ k ∧ Clash name s es := by
  unfold Clash
  rw [get?_cons]
  by_cases hname : name = k
  · subst hname
    simp
  · simp [hname]

/-- What is bound to one name does not matter to a clash about another one. -/
theorem clash_of_bind (h : s.bind k v = .ok u) (hname : name ≠ k) :
    Clash name u es ↔ Clash name s es := by
  unfold Clash
  rw [(union_of_bind h).1, if_neg hname, Option.or_none]

/-- The name of a clash is that of an entry, so it is not below all of them. -/
theorem Clash.not_below (h : Clash name s es) : ¬∀ entry ∈ es, name < entry.1 := by
  obtain ⟨_, w, -, hw, -⟩ := h
  intro hbelow
  rw [Entries.get?_eq_none hbelow] at hw
  cases hw

theorem Clash.le (hes : Entries.Ordered ((k, v) :: es)) (h : Clash name s ((k, v) :: es)) :
    k ≤ name := by
  refine String.not_lt.1 fun hlt => h.not_below (List.forall_mem_cons.2 ⟨hlt, fun entry he => ?_⟩)
  exact String.lt_trans hlt ((List.pairwise_cons.1 hes).1 entry he)

/-- Entries whose names rise clash with the table that they are added to, not with each other, and
the least name of a clash is reported. -/
theorem conflict_of_bindAll (hes : Entries.Ordered es) (h : s.bindAll es = .error e) :
    ∃ name, e = .paramConflict name ∧ Clash name s es ∧ ∀ other, Clash other s es → name ≤ other := by
  induction es generalizing s with
  | nil => cases h
  | cons entry es ih =>
    obtain ⟨k, v⟩ := entry
    rw [bindAll] at h
    rcases RecordFilter.bind_eq_error.1 h with h | ⟨s', hs', h⟩
    · obtain ⟨w, rfl, hw⟩ := bind_eq_error h
      exact ⟨k, rfl, clash_cons.2 (.inl ⟨rfl, w, hw⟩), fun other hother => hother.le hes⟩
    · obtain ⟨hk, hes⟩ := List.pairwise_cons.1 hes
      obtain ⟨name, rfl, hclash, hleast⟩ := ih hes h
      have hname : name ≠ k := by
        rintro rfl
        exact hclash.not_below hk
      refine ⟨name, rfl, clash_cons.2 (.inr ⟨hname, (clash_of_bind hs' hname).1 hclash⟩),
        fun other hother => ?_⟩
      rcases clash_cons.1 hother with ⟨rfl, w, hw, hwv⟩ | ⟨hother, hclash⟩
      · rw [(union_of_bind hs').2 w hw] at hwv
        cases hwv
      · exact hleast other ((clash_of_bind hs' hother).2 hclash)

/-- A failing merge reports the least name that the tables differ on. -/
theorem conflict_of_merge (h : s.merge t = .error e) :
    ∃ name, e = .paramConflict name ∧ Differ name s t ∧ ∀ other, Differ other s t → name ≤ other :=
  conflict_of_bindAll t.ordered h

/-- Two tables are merged if and only if they agree, and then to their union. -/
theorem merge_eq_ok_iff : s.merge t = .ok u ↔
    s.Agree t ∧ ∀ name, u.get? name = (s.get? name).or (t.get? name) := by
  constructor
  · intro h
    obtain ⟨hunion, hsame⟩ := union_of_bindAll h
    exact ⟨hsame, hunion⟩
  · rintro ⟨hagree, hunion⟩
    cases h : s.merge t with
    | error e =>
      obtain ⟨name, -, hdiffer, -⟩ := conflict_of_merge h
      exact absurd hdiffer (agree_iff.1 hagree name)
    | ok u' =>
      obtain ⟨hunion', -⟩ := union_of_bindAll h
      have hu : u' = u := Table.ext fun name => (hunion' name).trans (hunion name).symm
      rw [hu]

end

/-! ## Many tables -/

variable {tables us vs : List BindParams} {name : String} {u v w : BindParams} {e : SqlError}

/-- The value that the first of some tables gives to a name, if one of them does. -/
def firstValue? (tables : List BindParams) (name : String) : Option Value :=
  tables.findSome? fun t => t.get? name

/-- Whether a table binds the names of some tables, each to its first value. -/
def IsUnion (params : BindParams) (tables : List BindParams) : Prop :=
  ∀ name, params.get? name = firstValue? tables name

/-- Whether two of some tables give a name different values. -/
def Conflict (tables : List BindParams) (name : String) : Prop :=
  ∃ s t, [s, t].Sublist tables ∧ Differ name s t

theorem firstValue?_append : firstValue? (us ++ vs) name =
    (firstValue? us name).or (firstValue? vs name) :=
  List.findSome?_append

theorem exists_mem_of_firstValue? {x : Value} (h : firstValue? tables name = some x) :
    ∃ t ∈ tables, t.get? name = some x :=
  List.exists_of_findSome?_eq_some h

/-- Among tables that agree, every value of a name is its first one. -/
theorem exists_firstValue? (h : tables.Pairwise Agree) {t : BindParams} (ht : t ∈ tables)
    {x : Value} (hx : t.get? name = some x) :
    ∃ y, firstValue? tables name = some y ∧ (y = x ∨ y.same x = true) := by
  induction tables with
  | nil => cases ht
  | cons s ts ih =>
    obtain ⟨hs, hts⟩ := List.pairwise_cons.1 h
    rw [firstValue?, List.findSome?_cons]
    rcases List.mem_cons.1 ht with rfl | ht
    · rw [hx]
      exact ⟨x, rfl, .inl rfl⟩
    · cases hy : s.get? name with
      | none => exact ih hts ht
      | some y => exact ⟨y, rfl, .inr (hs t ht name y x hy hx)⟩

theorem same_of_agree {x x' y y' : Value} (hx : x = x' ∨ x.same x' = true)
    (hxy : x.same y = true) (hy : y = y' ∨ y.same y' = true) : x'.same y' = true := by
  have hxy' : x.same y' = true := by
    rcases hy with rfl | hy
    · exact hxy
    · exact Value.same_trans hxy hy
  rcases hx with rfl | hx
  · exact hxy'
  · rw [Value.same_comm] at hx
    exact Value.same_trans hx hxy'

/-- Tables agree two by two if their unions can be merged. -/
theorem union_of_merge (hu : IsUnion u us) (hv : IsUnion v vs) (hus : us.Pairwise Agree)
    (hvs : vs.Pairwise Agree) (h : u.merge v = .ok w) :
    (us ++ vs).Pairwise Agree ∧ IsUnion w (us ++ vs) := by
  obtain ⟨hagree, hunion⟩ := merge_eq_ok_iff.1 h
  constructor
  · refine List.pairwise_append.2 ⟨hus, hvs, fun s hs t ht name x y hx hy => ?_⟩
    obtain ⟨x', hx', hxx⟩ := exists_firstValue? hus hs hx
    obtain ⟨y', hy', hyy⟩ := exists_firstValue? hvs ht hy
    have hxy := hagree name x' y' ((hu name).trans hx') ((hv name).trans hy')
    exact same_of_agree hxx hxy hyy
  · intro name
    rw [hunion, hu, hv, firstValue?_append]

/-- If the unions cannot be merged, a table of one side differs from a table of the other. -/
theorem conflict_of_union (hu : IsUnion u us) (hv : IsUnion v vs) (h : u.merge v = .error e) :
    ∃ name, e = .paramConflict name ∧ Conflict (us ++ vs) name := by
  obtain ⟨name, rfl, ⟨x, y, hx, hy, hxy⟩, -⟩ := conflict_of_merge h
  obtain ⟨s, hs, hsx⟩ := exists_mem_of_firstValue? ((hu name).symm.trans hx)
  obtain ⟨t, ht, hty⟩ := exists_mem_of_firstValue? ((hv name).symm.trans hy)
  have hst : [s, t].Sublist (us ++ vs) :=
    (List.singleton_sublist.2 hs).append (List.singleton_sublist.2 ht)
  exact ⟨name, rfl, s, t, hst, x, y, hsx, hty, hxy⟩

theorem Conflict.not_pairwise (h : Conflict tables name) : ¬tables.Pairwise Agree := by
  obtain ⟨s, t, hst, hdiffer⟩ := h
  intro hagree
  exact agree_iff.1 (List.pairwise_iff_forall_sublist.1 hagree hst) name hdiffer

theorem Conflict.of_append_left (h : Conflict us name) : Conflict (us ++ vs) name := by
  obtain ⟨s, t, hst, hdiffer⟩ := h
  exact ⟨s, t, hst.trans (List.sublist_append_left us vs), hdiffer⟩

theorem Conflict.of_append_right (h : Conflict vs name) : Conflict (us ++ vs) name := by
  obtain ⟨s, t, hst, hdiffer⟩ := h
  exact ⟨s, t, hst.trans (List.sublist_append_right us vs), hdiffer⟩

theorem isUnion_empty : IsUnion .empty [] := fun _ => rfl

theorem isUnion_singleton (params : BindParams) : IsUnion params [params] := by
  intro name
  rw [firstValue?, List.findSome?_cons]
  cases params.get? name <;> rfl

end BindParams

/-! ## Parameters added to a fragment -/

namespace Fragment

variable {f made : Fragment} {params : BindParams} {e : SqlError}

theorem mergeParams_eq_ok_iff : f.mergeParams params = .ok made ↔
    ∃ merged, f.params.merge params = .ok merged ∧ made = ⟨f.text, merged⟩ := by
  rw [mergeParams, bind_eq_ok]
  constructor
  · rintro ⟨merged, hm, h⟩
    cases h
    exact ⟨merged, hm, rfl⟩
  · rintro ⟨merged, hm, rfl⟩
    exact ⟨merged, hm, rfl⟩

theorem mergeParams_eq_error_iff : f.mergeParams params = .error e ↔
    f.params.merge params = .error e := by
  rw [mergeParams, bind_eq_error]
  constructor
  · rintro (h | ⟨_, _, h⟩)
    · exact h
    · cases h
  · exact .inl

end Fragment

/-! ## Trees -/

namespace Generator

open BindParams (Agree IsUnion Conflict)

variable {g : Generator} {p left right : Predicate} {op : JoinOp} {c : Condition}
  {params : BindParams} {e : SqlError}

/-- The tables that the provider returns for the spatial tests of a tree, from left to right. -/
def tables (g : Generator) : Predicate → List BindParams
  | .not inner => g.tables inner
  | .join _ left right => g.tables left ++ g.tables right
  | .spatial op left right =>
    match g.spatial op left right with
    | .ok made => [made.params]
    | .error _ => []
  | _ => []

/-- Whether each test of a tree has a fragment on its own. -/
def MakesTests (g : Generator) (p : Predicate) : Prop :=
  ∀ t ∈ p.tests, ∃ made, g.fragment t = .ok made

theorem makesTests_join_iff :
    g.MakesTests (.join op left right) ↔ g.MakesTests left ∧ g.MakesTests right :=
  List.forall_mem_append

theorem fragment_of_generate (h : g.generate p = .ok (c, params)) :
    g.fragment p = .ok ⟨c.text g.dialect, params⟩ := by
  rw [fragment, h]
  rfl

theorem fragment_of_generate_error (h : g.generate p = .error e) : g.fragment p = .error e := by
  rw [fragment, h]
  rfl

theorem generate_not_eq_ok_iff :
    g.generate (.not p) = .ok (c, params) ↔ ∃ e, g.generate p = .ok (e, params) ∧ c = .not e := by
  rw [generate, bind_eq_ok]
  constructor
  · rintro ⟨⟨e, _⟩, he, h⟩
    cases h
    exact ⟨e, he, rfl⟩
  · rintro ⟨e, he, rfl⟩
    exact ⟨(e, params), he, rfl⟩

theorem generate_not_eq_error (h : g.generate (.not p) = .error e) : g.generate p = .error e := by
  rw [generate] at h
  rcases bind_eq_error.1 h with h | ⟨_, _, h⟩
  · exact h
  · cases h

theorem generate_join_eq_ok (h : g.generate (.join op left right) = .ok (c, params)) :
    ∃ e f es fs, g.generate left = .ok (e, es) ∧ g.generate right = .ok (f, fs) ∧
      es.merge fs = .ok params ∧ c = .join op e f := by
  rw [generate, bind_eq_ok] at h
  obtain ⟨⟨e, es⟩, he, h⟩ := h
  obtain ⟨⟨f, fs⟩, hf, h⟩ := bind_eq_ok.1 h
  obtain ⟨merged, hm, h⟩ := bind_eq_ok.1 h
  cases h
  exact ⟨e, f, es, fs, he, hf, hm, rfl⟩

/-- A connective fails with the error of its left side, or of its right side, or because the
parameters of both cannot be merged. -/
theorem generate_join_eq_error (h : g.generate (.join op left right) = .error e) :
    g.generate left = .error e ∨ ∃ l, g.generate left = .ok l ∧
      (g.generate right = .error e ∨ ∃ r, g.generate right = .ok r ∧ l.2.merge r.2 = .error e) := by
  rw [generate] at h
  rcases bind_eq_error.1 h with h | ⟨⟨c, es⟩, hl, h⟩
  · exact .inl h
  · rcases bind_eq_error.1 h with h | ⟨⟨d, fs⟩, hr, h⟩
    · exact .inr ⟨_, hl, .inl h⟩
    · rcases bind_eq_error.1 h with h | ⟨_, _, h⟩
      · exact .inr ⟨_, hl, .inr ⟨_, hr, h⟩⟩
      · cases h

/-- The condition of a tree has all parameters of its spatial tests, which agree. -/
theorem union_of_generate (h : g.generate p = .ok (c, params)) :
    g.MakesTests p ∧ (g.tables p).Pairwise Agree ∧ IsUnion params (g.tables p) := by
  induction p using Predicate.operandInduction generalizing c params with
  | step p ih =>
    have hself : ∀ {q}, q = p → ∃ made, g.fragment q = .ok made := by
      rintro q rfl
      exact ⟨_, fragment_of_generate h⟩
    cases p with
    | not inner =>
      obtain ⟨e, he, -⟩ := generate_not_eq_ok_iff.1 h
      exact ih inner (by simp [Predicate.operands]) he
    | join op left right =>
      obtain ⟨e, f, es, fs, he, hf, hm, -⟩ := generate_join_eq_ok h
      obtain ⟨hlt, hla, hlu⟩ := ih left (by simp [Predicate.operands]) he
      obtain ⟨hrt, hra, hru⟩ := ih right (by simp [Predicate.operands]) hf
      exact ⟨makesTests_join_iff.2 ⟨hlt, hrt⟩, BindParams.union_of_merge hlu hru hla hra hm⟩
    | spatial op left right =>
      obtain ⟨made, hmade, hok⟩ := bind_eq_ok.1 h
      cases hok
      refine ⟨fun t ht => hself (List.mem_singleton.1 ht), ?_⟩
      simp only [tables, hmade]
      exact ⟨List.pairwise_singleton .., BindParams.isUnion_singleton _⟩
    | compare | isIn =>
      obtain ⟨c, -, hok⟩ := bind_eq_ok.1 h
      cases hok
      exact ⟨fun t ht => hself (List.mem_singleton.1 ht), .nil, BindParams.isUnion_empty⟩
    | boolean b =>
      cases h
      exact ⟨fun t ht => hself (List.mem_singleton.1 ht), .nil, BindParams.isUnion_empty⟩
    | _ => cases h

/-- If all tests have fragments, a tree fails for a name to which two of its spatial tests give
different values. -/
theorem conflict_of_generate (ht : g.MakesTests p) (h : g.generate p = .error e) :
    ∃ name, e = .paramConflict name ∧ Conflict (g.tables p) name := by
  induction p using Predicate.operandInduction generalizing e with
  | step p ih =>
    cases p with
    | not inner => exact ih inner (by simp [Predicate.operands]) ht (generate_not_eq_error h)
    | join op left right =>
      obtain ⟨hlt, hrt⟩ := makesTests_join_iff.1 ht
      rcases generate_join_eq_error h with h | ⟨⟨c, es⟩, hl, h | ⟨⟨d, fs⟩, hr, h⟩⟩
      · obtain ⟨name, rfl, hconflict⟩ := ih left (by simp [Predicate.operands]) hlt h
        exact ⟨name, rfl, hconflict.of_append_left⟩
      · obtain ⟨name, rfl, hconflict⟩ := ih right (by simp [Predicate.operands]) hrt h
        exact ⟨name, rfl, hconflict.of_append_right⟩
      · exact BindParams.conflict_of_union (union_of_generate hl).2.2 (union_of_generate hr).2.2 h
    | _ =>
      -- a test has a fragment, so it does not fail
      obtain ⟨made, hmade⟩ := ht _ (List.mem_singleton.2 rfl)
      rw [fragment_of_generate_error h] at hmade
      cases hmade

end Generator

/-! ## Filters -/

namespace Filter

open BindParams (Agree IsUnion Conflict)

variable {f : Filter} {g : Generator} {made : Fragment} {e : SqlError}

theorem fragment_eq_ok (h : f.fragment g = .ok made) :
    ∃ c params, g.generate f.root = .ok (c, params) ∧ params.merge f.params = .ok made.params := by
  obtain ⟨root, hroot, h⟩ := bind_eq_ok.1 h
  obtain ⟨⟨c, params⟩, hgen, hok⟩ := bind_eq_ok.1 hroot
  cases hok
  obtain ⟨merged, hmerged, rfl⟩ := Fragment.mergeParams_eq_ok_iff.1 h
  exact ⟨c, params, hgen, hmerged⟩

theorem fragment_eq_error (h : f.fragment g = .error e) :
    g.generate f.root = .error e ∨
      ∃ c params, g.generate f.root = .ok (c, params) ∧ params.merge f.params = .error e := by
  rcases bind_eq_error.1 h with h | ⟨root, hroot, h⟩
  · rcases bind_eq_error.1 h with h | ⟨_, _, h⟩
    · exact .inl h
    · cases h
  · obtain ⟨⟨c, params⟩, hgen, hok⟩ := bind_eq_ok.1 hroot
    cases hok
    exact .inr ⟨c, params, hgen, Fragment.mergeParams_eq_error_iff.1 h⟩

/-- The tables behind a fragment: those of the spatial tests, and the filter's own. -/
def tables (f : Filter) (g : Generator) : List BindParams := g.tables f.root ++ [f.params]

/-- **Parameters are neither lost nor invented nor overwritten.**  A fragment binds the names of the
tables of the spatial tests and of the filter's own table, and no others; any two of these tables
agree on the names that they share.  If every test has a fragment and two of the tables give a name
different values, the filter fails for such a name. -/
theorem params_fragment (f : Filter) (g : Generator) :
    (∀ made, f.fragment g = .ok made →
      g.MakesTests f.root ∧ (f.tables g).Pairwise Agree ∧ IsUnion made.params (f.tables g)) ∧
    (g.MakesTests f.root → ∀ name, Conflict (f.tables g) name →
      ∃ other, f.fragment g = .error (.paramConflict other) ∧ Conflict (f.tables g) other) := by
  have hunion : ∀ made, f.fragment g = .ok made →
      g.MakesTests f.root ∧ (f.tables g).Pairwise Agree ∧ IsUnion made.params (f.tables g) := by
    intro made h
    obtain ⟨c, params, hgen, hm⟩ := fragment_eq_ok h
    obtain ⟨ht, ha, hu⟩ := Generator.union_of_generate hgen
    exact ⟨ht, BindParams.union_of_merge hu (BindParams.isUnion_singleton _) ha
      (List.pairwise_singleton ..) hm⟩
  refine ⟨hunion, fun ht name hname => ?_⟩
  cases h : f.fragment g with
  | ok made => exact absurd (hunion made h).2.1 hname.not_pairwise
  | error e =>
    rcases fragment_eq_error h with h | ⟨c, params, hgen, h⟩
    · obtain ⟨name, rfl, hconflict⟩ := Generator.conflict_of_generate ht h
      exact ⟨name, rfl, hconflict.of_append_left⟩
    · obtain ⟨-, -, hu⟩ := Generator.union_of_generate hgen
      obtain ⟨name, rfl, hconflict⟩ :=
        BindParams.conflict_of_union hu (BindParams.isUnion_singleton _) h
      exact ⟨name, rfl, hconflict⟩

/-- A provider that binds the geometry of each test to the same name. -/
def placing : Generator where
  table := "places"
  fieldMap := .empty
  session := .empty
  geometry := some fun r => .ok ⟨"within", Table.ofList [("geom", Value.ofJson r.geometry)]⟩
  dialect := .cql

/-- Two spatial tests, one of them negated, and a parameter of the filter. -/
def placed (m n : Int) : Filter where
  root := .join .or (.spatial .intersects (.field "a") (.geometry (.integer m)))
    (.not (.spatial .intersects (.geometry (.integer n)) (.field "b")))
  params := Table.ofList [("srid", .integer 4326)]

theorem makesTests_placed (m n : Int) : placing.MakesTests (placed m n).root :=
  List.forall_mem_cons.2 ⟨⟨_, rfl⟩, List.forall_mem_singleton.2 ⟨_, rfl⟩⟩

/-- With one geometry both names are bound, with two the filter fails. -/
theorem params_fragment_placed :
    (∃ made, (placed 1 1).fragment placing = .ok made ∧
      made.params.get? "geom" = some (.integer 1) ∧
      made.params.get? "srid" = some (.integer 4326) ∧ made.params.get? "a" = none) ∧
    ∃ other, (placed 1 2).fragment placing = .error (.paramConflict other) := by
  constructor
  · obtain ⟨made, hmade⟩ : ∃ made, (placed 1 1).fragment placing = .ok made := ⟨_, rfl⟩
    obtain ⟨-, -, hunion⟩ := (params_fragment (placed 1 1) placing).1 made hmade
    exact ⟨made, hmade, hunion "geom", hunion "srid", hunion "a"⟩
  · have hconflict : Conflict ((placed 1 2).tables placing) "geom" :=
      ⟨_, _, List.sublist_append_left _ _, .integer 1, .integer 2, rfl, rfl, by decide⟩
    obtain ⟨other, hother, -⟩ :=
      (params_fragment (placed 1 2) placing).2 (makesTests_placed 1 2) "geom" hconflict
    exact ⟨other, hother⟩

end Filter

end RecordFilter
