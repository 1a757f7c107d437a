import RecordFilter.Proofs.Cli.Command
import RecordFilter.Proofs.Json.Extents
import RecordFilter.Proofs.Results

/-!
# Checking collections

`check` decides about the members of a collection one by one, each as the record that it would be
on its own: it keeps those that pass, as they are and in their order, and reports the first one that
has no truth value.

    collection? j = some members ↔ Collects j members                       (collection?_eq_some_iff)
    select f session ms = .ok ks ↔ (every m ∈ ms is decided) ∧ ks = ms.filter (keeps f session)
                                                                                (select_eq_ok_iff)
-/

namespace RecordFilter

namespace Command

variable {f : Filter} {session : Variables} {j m : Json} {members kept : List Json} {b : Bool}
  {e : EvalError} {expression text : String}

/-! ## Collections -/

/-- `Collects j members`: a list, or a feature collection, whose features may be missing. -/
inductive Collects : Json → List Json → Prop
  | list (items : List Json) : Collects (.array items) items
  | features {j : Json} {features : List Json} : j.stringMember? "type" = some "FeatureCollection" →
      j.member? "features" = some (.array features) → Collects j features
  | nothing {j : Json} : j.stringMember? "type" = some "FeatureCollection" →
      (∀ features, j.member? "features" ≠ some (.array features)) → Collects j []

theorem collection?_eq_some_iff : collection? j = some members ↔ Collects j members := by
  constructor
  · intro h
    cases j with
    | array items =>
      cases h
      exact .list _
    | object ms =>
      simp only [collection?] at h
      split at h
      · rename_i ht
        split at h
        · rename_i features hf
          cases h
          exact .features ht hf
        · rename_i hf
          cases h
          exact .nothing ht hf
      · cases h
    | _ => cases h
  · intro h
    cases h with
    | list items => rfl
    | features ht hf =>
      cases j with
      | object ms => simp only [collection?, ht, hf, if_true]
      | _ => cases ht
    | nothing ht hf =>
      cases j with
      | object ms =>
        simp only [collection?, ht, if_true]
      | _ => cases ht

theorem collection?_eq_none (h : ¬∃ members, Collects j members) : collection? j = none := by
  rw [Option.eq_none_iff_forall_ne_some]
  exact fun members hm => h ⟨members, collection?_eq_some_iff.1 hm⟩

/-! ## Members -/

/-- Whether a filter decides about the record of a JSON value, and lets it pass. -/
def keeps (f : Filter) (session : Variables) (j : Json) : Bool :=
  (f.evaluate session (Record.ofJson j)).toOption == some true

theorem passes_eq_ok_iff : passes f session j = .ok b ↔ f.evaluate session (Record.ofJson j) = .ok b :=
  mapError_eq_ok

theorem passes_eq_error_iff {c : CommandError} : passes f session j = .error c ↔
    ∃ e, f.evaluate session (Record.ofJson j) = .error e ∧ c = .eval e := by
  rw [passes]
  cases f.evaluate session (Record.ofJson j) with
  | error e => simp [Except.mapError, eq_comm]
  | ok b => simp [Except.mapError]

theorem keeps_of_passes (h : passes f session j = .ok b) : keeps f session j = b := by
  rw [keeps, passes_eq_ok_iff.1 h]
  cases b <;> rfl

theorem keeps_iff : keeps f session j = true ↔ passes f session j = .ok true := by
  constructor
  · intro h
    rw [passes_eq_ok_iff]
    unfold keeps at h
    cases hf : f.evaluate session (Record.ofJson j) with
    | error e =>
      rw [hf] at h
      cases h
    | ok b =>
      rw [hf] at h
      rw [Option.some.inj (beq_iff_eq.1 h)]
  · exact keeps_of_passes

/-! ## The loop over the members -/

theorem select_cons (m : Json) (ms : List Json) : select f session (m :: ms) =
    (passes f session m >>= fun b => (select f session ms).map fun rest =>
      if b then m :: rest else rest) := by
  rw [select]
  cases passes f session m with
  | error e => rfl
  | ok b => cases select f session ms <;> rfl

/-- Members that are all decided are kept where they pass. -/
theorem select_of_forall (h : ∀ m ∈ members, ∃ b, passes f session m = .ok b) :
    select f session members = .ok (members.filter (keeps f session)) := by
  induction members with
  | nil => rfl
  | cons m ms ih =>
    obtain ⟨⟨b, hb⟩, hms⟩ := List.forall_mem_cons.1 h
    rw [select_cons, hb, ih hms, List.filter_cons, keeps_of_passes hb]
    rfl

/-- The first member that is not decided stops the selection. -/
theorem select_of_error {before after : List Json} {c : CommandError}
    (hb : ∀ k ∈ before, ∃ b, passes f session k = .ok b) (hm : passes f session m = .error c) :
    select f session (before ++ m :: after) = .error c := by
  induction before with
  | nil =>
    rw [List.nil_append, select_cons, hm]
    rfl
  | cons k ks ih =>
    obtain ⟨⟨b, hk⟩, hks⟩ := List.forall_mem_cons.1 hb
    rw [List.cons_append, select_cons, hk, ih hks]
    rfl

/-- Either all members are decided, or there is a first one that is not. -/
theorem decided_or_first (f : Filter) (session : Variables) (members : List Json) :
    (∀ m ∈ members, ∃ b, passes f session m = .ok b) ∨
      ∃ before m after c, members = before ++ m :: after ∧
        (∀ k ∈ before, ∃ b, passes f session k = .ok b) ∧ passes f session m = .error c := by
  induction members with
  | nil => exact .inl nofun
  | cons m ms ih =>
    cases hm : passes f session m with
    | error c => exact .inr ⟨[], m, ms, c, rfl, nofun, hm⟩
    | ok b =>
      rcases ih with hall | ⟨before, k, after, c, rfl, hb, hk⟩
      · exact .inl (List.forall_mem_cons.2 ⟨⟨b, hm⟩, hall⟩)
      · exact .inr ⟨m :: before, k, after, c, rfl, List.forall_mem_cons.2 ⟨⟨b, hm⟩, hb⟩, hk⟩

theorem select_eq_ok_iff : select f session members = .ok kept ↔
    (∀ m ∈ members, ∃ b, passes f session m = .ok b) ∧ kept = members.filter (keeps f session) := by
  constructor
  · intro h
    rcases decided_or_first f session members with hall | ⟨before, m, after, c, rfl, hb, hm⟩
    · rw [select_of_forall hall] at h
      exact ⟨hall, (Except.ok.inj h).symm⟩
    · rw [select_of_error hb hm] at h
      cases h
  · rintro ⟨hall, rfl⟩
    exact select_of_forall hall

/-! ## The command -/

theorem check_eq (hf : Filter.parse expression = .ok f)
    (hj : Json.parse? Json.documentDepth text = some j) :
    check expression (some text) session false =
      match collection? j with
      | some members => (select f session members).map .selected
      | none => (passes f session j).map .matched := by
  simp only [check, parseFilter, hf, inputJson_eq_ok_iff.2 hj, Except.mapError]
  show (match collection? j with
    | some members => select f session members >>= fun kept => .ok (CheckResult.selected kept)
    | none => passes f session j >>= fun b => .ok (CheckResult.matched b)) = _
  cases collection? j with
  | some members => cases select f session members <;> rfl
  | none => cases passes f session j <;> rfl

theorem check_of_collects (hf : Filter.parse expression = .ok f)
    (hj : Json.parse? Json.documentDepth text = some j) (hm : Collects j members) :
    check expression (some text) session false = (select f session members).map .selected := by
  rw [check_eq hf hj, collection?_eq_some_iff.2 hm]

theorem check_of_not_collects (hf : Filter.parse expression = .ok f)
    (hj : Json.parse? Json.documentDepth text = some j) (hm : ¬∃ members, Collects j members) :
    check expression (some text) session false = (passes f session j).map .matched := by
  rw [check_eq hf hj, collection?_eq_none hm]

/-- The members of a collection that was read have texts of their own. -/
theorem exists_text_of_mem (hj : Json.parse? Json.documentDepth text = some j)
    (hm : Collects j members) : ∀ m ∈ members, ∃ alone, Json.parse? Json.documentDepth alone = some m := by
  intro m hmem
  cases hm with
  | list items => exact Json.exists_parse?_of_parts hj (.part (.item hmem) .self)
  | features ht hf =>
    exact Json.exists_parse?_of_parts hj (.part (Json.part_of_member hf) (.part (.item hmem) .self))
  | nothing => cases hmem

/-- **`check` is a filter of records.**  Of a list or a feature collection whose members can all be
decided, it selects those whose records pass the filter, unchanged, in their order and as often as
they occur.  Where a member cannot be decided, the result is the error of the first such member.  A
member that is no collection itself has a text of its own, and it is selected exactly when `check`
of such a text is a match. -/
theorem check_collection (hf : Filter.parse expression = .ok f)
    (hj : Json.parse? Json.documentDepth text = some j) (hm : Collects j members)
    (session : Variables) :
    ((∀ m ∈ members, ∃ b, f.evaluate session (Record.ofJson m) = .ok b) →
      check expression (some text) session false =
        .ok (.selected (members.filter (keeps f session)))) ∧
    (∀ before m after e, members = before ++ m :: after →
      (∀ k ∈ before, ∃ b, f.evaluate session (Record.ofJson k) = .ok b) →
      f.evaluate session (Record.ofJson m) = .error e →
      check expression (some text) session false = .error (.eval e)) ∧
    ∀ selected, check expression (some text) session false = .ok (.selected selected) →
      ∀ m ∈ members, (¬∃ inner, Collects m inner) →
        (∃ alone, Json.parse? Json.documentDepth alone = some m) ∧
        ∀ alone, Json.parse? Json.documentDepth alone = some m →
          (m ∈ selected ↔ check expression (some alone) session false = .ok (.matched true)) := by
  rw [check_of_collects hf hj hm]
  refine ⟨?_, ?_, ?_⟩
  · intro hall
    have hall : ∀ m ∈ members, ∃ b, passes f session m = .ok b := by
      simpa only [passes_eq_ok_iff] using hall
    rw [select_of_forall hall]
    rfl
  · rintro before m after e rfl hb he
    have hb : ∀ k ∈ before, ∃ b, passes f session k = .ok b := by
      simpa only [passes_eq_ok_iff] using hb
    rw [select_of_error hb (passes_eq_error_iff.2 ⟨e, he, rfl⟩)]
    rfl
  · intro selected hsel m hmem hsingle
    refine ⟨exists_text_of_mem hj hm m hmem, fun alone halone => ?_⟩
    obtain ⟨kept, hkept, hsel⟩ := map_eq_ok.1 hsel
    cases hsel
    obtain ⟨-, rfl⟩ := select_eq_ok_iff.1 hkept
    rw [check_of_not_collects hf halone hsingle, List.mem_filter, and_iff_right hmem, keeps_iff,
      map_eq_ok]
    constructor
    · intro hp
      exact ⟨true, hp, rfl⟩
    · rintro ⟨b, hp, ⟨⟩⟩
      exact hp

/-- `[a] = 1` -/
def oneTree : Predicate := .compare .equal (.field "a") (.integer 1)

theorem parse_oneTree : Filter.parse "[a] = 1" = .ok (.ofPredicate oneTree) := by
  have hparse : Predicate.parse oneTree.text = .ok oneTree := by
    refine Predicate.parse_text ?_ (by decide) (by decide) ?_
    · exact .compare .equal ⟨by decide, by decide⟩ trivial
    · rw [Predicate.height_eq_levels]
      decide
  have htext : oneTree.text = "[a] = 1" := by decide
  rw [Filter.parse, ← htext, hparse]
  rfl

/-- `[{"a":1},{},{"properties":{"a":1}}]` -/
def threeText : String :=
  "[\x7b\"a\":1\x7d,\x7b\x7d,\x7b\"properties\":\x7b\"a\":1\x7d\x7d]"

def plainOne : Json := .object [("a", .integer 1)]

def featureOne : Json := .object [("properties", plainOne)]

def threeMembers : List Json := [plainOne, .object [], featureOne]

theorem parse?_threeText :
    Json.parse? Json.documentDepth threeText = some (.array threeMembers) := by
  cbv

/-- Of three records the two that pass are kept, in their order. -/
theorem check_collection_threeText :
    Filter.parse "[a] = 1" = .ok (.ofPredicate oneTree) ∧
      Json.parse? Json.documentDepth threeText = some (.array threeMembers) ∧
      check "[a] = 1" (some threeText) .empty false = .ok (.selected [plainOne, featureOne]) := by
  obtain ⟨hall, -, -⟩ := check_collection parse_oneTree parse?_threeText (.list _) .empty
  have hplain : keeps (.ofPredicate oneTree) .empty plainOne = true := by decide +kernel
  have hempty : keeps (.ofPredicate oneTree) .empty (.object []) = false := by decide +kernel
  have hfeature : keeps (.ofPredicate oneTree) .empty featureOne = true := by decide +kernel
  simp only [threeMembers, List.filter, hplain, hempty, hfeature] at hall
  refine ⟨parse_oneTree, parse?_threeText, hall ?_⟩
  simp only [List.forall_mem_cons]
  exact ⟨⟨_, rfl⟩, ⟨_, rfl⟩, ⟨_, rfl⟩, nofun⟩

end Command

end RecordFilter
