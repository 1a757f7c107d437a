import Mathlib.Data.List.Perm.Basic
import Mathlib.Data.Option.Basic
import RecordFilter.Proofs.Sql.Parameters
import RecordFilter.Proofs.Value.Reflexivity

/-!
# Fragments put together in any order

Fragments are joined two by two, in some order and with some grouping.  Whether all joins succeed
depends on the tables of parameters alone, which have to agree two by two, and then the parameters
are the union of the tables.  A join that fails names the least parameter that its sides differ on,
whichever side comes first.

    (∃ made, c.result = .ok made) ↔ c.tables.Pairwise Agree                   (result_isOk_iff)
    s.merge t = .error e ↔ t.merge s = .error e                           (merge_error_comm)
-/

namespace RecordFilter

namespace BindParams

variable {s t u v : BindParams} {us vs : List BindParams} {name : String} {e : SqlError}

/-! ## Two tables, in either order -/

theorem Agree.symm (h : s.Agree t) : t.Agree s := by
  intro name v w hv hw
  rw [Value.same_comm]
  exact h name w v hw hv

theorem Differ.symm (h : Differ name s t) : Differ name t s := by
  obtain ⟨v, w, hv, hw, hvw⟩ := h
  exact ⟨w, v, hw, hv, (Value.same_comm w v).trans hvw⟩

theorem differ_comm : Differ name s t ↔ Differ name t s := ⟨Differ.symm, Differ.symm⟩

/-- A merge fails if and only if the tables differ, and with the least name that they differ on. -/
theorem merge_eq_error_iff : s.merge t = .error e ↔
    ∃ name, e = .paramConflict name ∧ Differ name s t ∧ ∀ other, Differ other s t → name ≤ other := by
  constructor
  · exact conflict_of_merge
  · rintro ⟨name, rfl, hdiffer, hleast⟩
    cases h : s.merge t with
    | ok u => exact absurd hdiffer (agree_iff.1 (merge_eq_ok_iff.1 h).1 name)
    | error e =>
      obtain ⟨name', rfl, hdiffer', hleast'⟩ := conflict_of_merge h
      rw [String.le_antisymm (hleast' name hdiffer) (hleast name' hdiffer')]

theorem merge_error_comm : s.merge t = .error e ↔ t.merge s = .error e := by
  rw [merge_eq_error_iff, merge_eq_error_iff]
  simp only [differ_comm (s := s)]

/-- Whether a table binds the names of another one, to equal values. -/
def Contains (s t : BindParams) : Prop :=
  ∀ name w, t.get? name = some w → ∃ v, s.get? name = some v ∧ v.same w = true

/-- A merge adds nothing to a table if and only if the table contains the other one. -/
theorem merge_eq_self_iff : s.merge t = .ok s ↔ s.Contains t := by
  rw [merge_eq_ok_iff]
  constructor
  · rintro ⟨hagree, hunion⟩ name w hw
    have hname := hunion name
    rw [hw] at hname
    cases hv : s.get? name with
    | none =>
      rw [hv] at hname
      cases hname
    | some v => exact ⟨v, rfl, hagree name v w hv hw⟩
  · intro h
    constructor
    · intro name v w hv hw
      obtain ⟨v', hv', hsame⟩ := h name w hw
      cases hv.symm.trans hv'
      exact hsame
    · intro name
      cases hw : t.get? name with
      | none => exact (Option.or_none ..).symm
      | some w =>
        obtain ⟨v, hv, -⟩ := h name w hw
        rw [hv]
        rfl

/-! ## Unions of the same tables -/

/-- Whether two tables bind the same names to equal values. -/
def Same (s t : BindParams) : Prop :=
  ∀ name, Option.Rel (fun v w => v.same w = true) (s.get? name) (t.get? name)

/-- Whether no value of a table holds `nan`, so that each equals itself. -/
def NanFree (t : BindParams) : Prop := ∀ name v, t.get? name = some v → v.NanFree

/-- Whether equal values that some tables give to a name are one value: zeros have one sign. -/
def OneValued (tables : List BindParams) : Prop :=
  ∀ s ∈ tables, ∀ t ∈ tables, ∀ name v w, s.get? name = some v → t.get? name = some w →
    v.same w = true → v = w

/-- What the union of some tables binds, the union of more tables that agree binds to an equal
value. -/
theorem exists_get?_of_isUnion (hu : IsUnion u us) (hv : IsUnion v vs) (hsub : us ⊆ vs)
    (hvs : vs.Pairwise Agree) {x : Value} (hx : u.get? name = some x) :
    ∃ y, v.get? name = some y ∧ (y = x ∨ y.same x = true) := by
  obtain ⟨t, ht, hx⟩ := exists_mem_of_firstValue? ((hu name).symm.trans hx)
  rw [hv]
  exact exists_firstValue? hvs (hsub ht) hx

theorem same_of_isUnion (hu : IsUnion u us) (hv : IsUnion v vs) (hp : us.Perm vs)
    (hus : us.Pairwise Agree) (hvs : vs.Pairwise Agree) (hnan : ∀ t ∈ us, t.NanFree) :
    u.Same v := by
  intro name
  cases hx : u.get? name with
  | none =>
    cases hy : v.get? name with
    | none => exact .none
    | some y =>
      obtain ⟨x, hx', -⟩ := exists_get?_of_isUnion hv hu hp.symm.subset hus hy
      cases hx.symm.trans hx'
  | some x =>
    obtain ⟨y, hy, hyx⟩ := exists_get?_of_isUnion hu hv hp.subset hvs hx
    rw [hy]
    rcases hyx with rfl | hyx
    · obtain ⟨t, ht, hy⟩ := exists_mem_of_firstValue? ((hu name).symm.trans hx)
      exact .some (Value.same_self y (hnan t ht name y hy))
    · exact .some ((Value.same_comm x y).trans hyx)

theorem eq_of_isUnion (hu : IsUnion u us) (hv : IsUnion v vs) (hp : us.Perm vs)
    (hsame : u.Same v) (hone : OneValued us) : u = v := by
  refine Table.ext fun name => ?_
  have hname := hsame name
  generalize hx : u.get? name = a at hname ⊢
  generalize hy : v.get? name = b at hname ⊢
  cases hname with
  | none => rfl
  | @some x y hxy =>
    obtain ⟨s, hs, hsx⟩ := exists_mem_of_firstValue? ((hu name).symm.trans hx)
    obtain ⟨t, ht, hty⟩ := exists_mem_of_firstValue? ((hv name).symm.trans hy)
    rw [hone s hs t (hp.symm.subset ht) name x y hsx hty hxy]

end BindParams

/-! ## Joining fragments two by two -/

open BindParams (Agree Differ Contains Same OneValued IsUnion Conflict)

/-- Fragments to be joined two by two, each join by a keyword. -/
inductive Combination
  | one (f : Fragment)
  | join (keyword : String) (left right : Combination)

namespace Combination

variable {c d : Combination} {made : Fragment} {e : SqlError}

/-- The fragments that are joined, from left to right. -/
def fragments : Combination → List Fragment
  | one f => [f]
  | join _ left right => left.fragments ++ right.fragments

/-- The parameters of the fragments that are joined. -/
def tables (c : Combination) : List BindParams := c.fragments.map (·.params)

/-- What becomes of the fragments: both sides of a join, then the join. -/
def result : Combination → Except SqlError Fragment
  | one f => .ok f
  | join keyword left right => do
    let f ← left.result
    let g ← right.result
    f.combine keyword g

theorem tables_join (keyword : String) (c d : Combination) :
    (join keyword c d).tables = c.tables ++ d.tables := by
  rw [tables, fragments, List.map_append]
  rfl

end Combination

namespace Fragment

variable {f g made : Fragment} {keyword : String} {e : SqlError}

theorem combine_eq_ok (h : f.combine keyword g = .ok made) :
    f.params.merge g.params = .ok made.params := by
  obtain ⟨merged, hm, rfl⟩ := mergeParams_eq_ok_iff.1 h
  exact hm

theorem combine_eq_error_iff : f.combine keyword g = .error e ↔
    f.params.merge g.params = .error e :=
  mergeParams_eq_error_iff

end Fragment

namespace Combination

variable {c d : Combination} {made : Fragment} {e : SqlError}

/-- What comes of a combination has the union of the tables, which agree. -/
theorem union_of_result (h : c.result = .ok made) :
    c.tables.Pairwise Agree ∧ IsUnion made.params c.tables := by
  induction c generalizing made with
  | one f =>
    cases h
    exact ⟨List.pairwise_singleton .., BindParams.isUnion_singleton f.params⟩
  | join keyword left right ihl ihr =>
    obtain ⟨f, hf, h⟩ := bind_eq_ok.1 h
    obtain ⟨g, hg, h⟩ := bind_eq_ok.1 h
    obtain ⟨hus, hu⟩ := ihl hf
    obtain ⟨hvs, hv⟩ := ihr hg
    rw [tables_join]
    exact BindParams.union_of_merge hu hv hus hvs (Fragment.combine_eq_ok h)

/-- A combination fails because two of its tables differ. -/
theorem conflict_of_result (h : c.result = .error e) : ∃ name, Conflict c.tables name := by
  induction c generalizing e with
  | one f => cases h
  | join keyword left right ihl ihr =>
    rw [tables_join]
    rcases bind_eq_error.1 h with h | ⟨f, hf, h⟩
    · obtain ⟨name, hname⟩ := ihl h
      exact ⟨name, hname.of_append_left⟩
    · rcases bind_eq_error.1 h with h | ⟨g, hg, h⟩
      · obtain ⟨name, hname⟩ := ihr h
        exact ⟨name, hname.of_append_right⟩
      · obtain ⟨name, -, hname⟩ := BindParams.conflict_of_union (union_of_result hf).2
          (union_of_result hg).2 (Fragment.combine_eq_error_iff.1 h)
        exact ⟨name, hname⟩

/-- All joins succeed if and only if the tables agree two by two. -/
theorem result_isOk_iff : (∃ made, c.result = .ok made) ↔ c.tables.Pairwise Agree := by
  constructor
  · rintro ⟨made, h⟩
    exact (union_of_result h).1
  · intro hagree
    cases h : c.result with
    | ok made => exact ⟨made, rfl⟩
    | error e =>
      obtain ⟨name, hname⟩ := conflict_of_result h
      exact absurd hagree hname.not_pairwise

theorem pairwise_agree_iff_of_perm (hp : c.tables.Perm d.tables) :
    c.tables.Pairwise Agree ↔ d.tables.Pairwise Agree :=
  hp.pairwise_iff BindParams.Agree.symm

/-- **Parameters of fragments in any order and grouping.**  Whatever the keywords, all combinations
of the same fragments succeed or all fail.  If they succeed they have the same parameters, the union
of the tables, where zeros of both signs count as equal and the fragment that comes first decides.
Parameters that a fragment already has change nothing.  A join that fails reports the least name that
its sides differ on, in either order of the sides. -/
theorem result_order_independent :
    (∀ c d : Combination, c.fragments.Perm d.fragments → (∀ t ∈ c.tables, t.NanFree) →
      (∃ made made', c.result = .ok made ∧ d.result = .ok made' ∧
        IsUnion made.params c.tables ∧ IsUnion made'.params d.tables ∧
        Same made.params made'.params ∧ (OneValued c.tables → made.params = made'.params)) ∨
      ∃ e e', c.result = .error e ∧ d.result = .error e') ∧
    (∀ (f : Fragment) (params : BindParams),
      f.mergeParams params = .ok f ↔ Contains f.params params) ∧
    (∀ (f : Fragment) (params : BindParams) (e : SqlError), f.mergeParams params = .error e ↔
      ∃ name, e = .paramConflict name ∧ Differ name f.params params ∧
        ∀ other, Differ other f.params params → name ≤ other) ∧
    ∀ (f g : Fragment) (keyword : String) (e : SqlError),
      f.combine keyword g = .error e ↔ g.combine keyword f = .error e := by
  refine ⟨fun c d hp hnan => ?_, fun f params => ?_, fun f params e => ?_, fun f g keyword e => ?_⟩
  · have hp : c.tables.Perm d.tables := hp.map _
    cases hc : c.result with
    | error e =>
      cases hd : d.result with
      | error e' => exact .inr ⟨e, e', rfl, rfl⟩
      | ok made' =>
        obtain ⟨made, hmade⟩ :=
          result_isOk_iff.2 ((pairwise_agree_iff_of_perm hp).2 (union_of_result hd).1)
        cases hc.symm.trans hmade
    | ok made =>
      obtain ⟨hus, hu⟩ := union_of_result hc
      have hvs := (pairwise_agree_iff_of_perm hp).1 hus
      obtain ⟨made', hd⟩ := result_isOk_iff.2 hvs
      have hv := (union_of_result hd).2
      have hsame := BindParams.same_of_isUnion hu hv hp hus hvs hnan
      exact .inl ⟨made, made', rfl, hd, hu, hv, hsame, BindParams.eq_of_isUnion hu hv hp hsame⟩
  · rw [← BindParams.merge_eq_self_iff, Fragment.mergeParams_eq_ok_iff]
    constructor
    · rintro ⟨merged, hm, hf⟩
      rw [hm, hf]
    · intro h
      exact ⟨f.params, h, rfl⟩
  · rw [Fragment.mergeParams_eq_error_iff, BindParams.merge_eq_error_iff]
  · rw [Fragment.combine_eq_error_iff, Fragment.combine_eq_error_iff, BindParams.merge_error_comm]

/-! ## Zeros of both signs -/

/-- A fragment with one parameter. -/
def bound (text name : String) (v : Value) : Combination :=
  one ((Fragment.ofText text).withParam name v)

def negativeZero : Combination := bound "a" "z" (.float (.finite true .zero))

def positiveZero : Combination := bound "b" "z" (.float .zero)

def srid : Combination := bound "c" "srid" (.integer 4326)

theorem nanFree_bound {text name : String} {v : Value} (hv : v.NanFree) :
    ∀ t ∈ (bound text name v).tables, t.NanFree := by
  refine List.forall_mem_singleton.2 fun name' w hw => ?_
  rw [Fragment.withParam, Table.get?_insert] at hw
  split at hw
  · cases hw
    exact hv
  · cases hw

/-- Two zeros are one parameter, and the first of them stays; two integers are a conflict. -/
theorem result_order_independent_zeros :
    (∃ made made', (join "AND" (join "OR" negativeZero positiveZero) srid).result = .ok made ∧
      (join "OR" srid (join "AND" positiveZero negativeZero)).result = .ok made' ∧
      Same made.params made'.params ∧
      made.params.get? "z" = some (.float (.finite true .zero)) ∧
      made'.params.get? "z" = some (.float .zero)) ∧
    (Fragment.ofText "a").mergeParams .empty = .ok (Fragment.ofText "a") ∧
    ((Fragment.ofText "a").withParam "g" (.integer 2)).combine "AND"
        ((Fragment.ofText "b").withParam "g" (.integer 1)) = .error (.paramConflict "g") := by
  obtain ⟨horder, hcontains, -, hsides⟩ := result_order_independent
  refine ⟨?_, (hcontains _ _).2 nofun, (hsides _ _ _ _).2 rfl⟩
  have hnan : ∀ t ∈ (join "AND" (join "OR" negativeZero positiveZero) srid).tables, t.NanFree := by
    rw [tables_join, tables_join, List.forall_mem_append, List.forall_mem_append]
    exact ⟨⟨nanFree_bound (Value.nanFree_float_iff.2 nofun),
      nanFree_bound (Value.nanFree_float_iff.2 nofun)⟩, nanFree_bound nofun⟩
  rcases horder (join "AND" (join "OR" negativeZero positiveZero) srid)
    (join "OR" srid (join "AND" positiveZero negativeZero)) (List.reverse_perm _).symm hnan with
    ⟨made, made', hmade, hmade', hu, hv, hsame, -⟩ | ⟨e, -, he, -⟩
  · exact ⟨made, made', hmade, hmade', hsame, hu "z", hv "z"⟩
  · cases he

end Combination

end RecordFilter
