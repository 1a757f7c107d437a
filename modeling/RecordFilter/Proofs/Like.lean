import RecordFilter.Evaluation

/-!
# The language of a pattern

`Pattern.Like` says by itself which texts a pattern stands for, and `Pattern.Fits`
says the same of a list of items and any way of comparing characters.  The flags
that a text is matched with decide the items (accepts_iff_fits), reading a pattern
keeps its language (fits_items_iff_like), and so does writing it as a regular
expression (finds_regex_iff_like), which is searched for with what `Expression.Matches`
says of anchors, dots and escaped characters.

    comparing two values with `like`: true ↔ the text is in the language    (evaluate_like)
-/

namespace RecordFilter

namespace Pattern

/-! ## Texts and patterns -/

/-- The texts a pattern stands for. -/
inductive Like : List Char → List Char → Prop
  | nil : Like [] []
  | run {ps cs : List Char} (skipped : List Char) (h : Like ps cs) : Like ('%' :: ps) (skipped ++ cs)
  | one {ps cs : List Char} (c : Char) (h : Like ps cs) : Like ('_' :: ps) (c :: cs)
  | escaped {ps cs : List Char} (c : Char) (h : Like ps cs) : Like ('\\' :: c :: ps) (c :: cs)
  | backslash : Like ['\\'] ['\\']
  | literal {ps cs : List Char} {c : Char} (hrun : c ≠ '%') (hone : c ≠ '_') (hescape : c ≠ '\\')
      (h : Like ps cs) : Like (c :: ps) (c :: cs)

/-- The texts a list of items stands for, with characters compared by `same`. -/
inductive Fits (same : Char → Char → Bool) : List PatternItem → List Char → Prop
  | nil : Fits same [] []
  | anyRun {ps : List PatternItem} {cs : List Char} (skipped : List Char) (h : Fits same ps cs) :
      Fits same (.anyRun :: ps) (skipped ++ cs)
  | anyChar {ps : List PatternItem} {cs : List Char} (c : Char) (h : Fits same ps cs) :
      Fits same (.anyChar :: ps) (c :: cs)
  | literal {ps : List PatternItem} {cs : List Char} {l c : Char} (hc : same l c = true)
      (h : Fits same ps cs) : Fits same (.literal l :: ps) (c :: cs)

variable {same : Char → Char → Bool} {ps : List PatternItem} {cs : List Char}

theorem fits_nil_iff : Fits same [] cs ↔ cs = [] := by
  constructor
  · rintro ⟨⟩
    rfl
  · rintro rfl
    exact .nil

theorem fits_anyRun_iff :
    Fits same (.anyRun :: ps) cs ↔ ∃ skipped rest, cs = skipped ++ rest ∧ Fits same ps rest := by
  constructor
  · intro h
    cases h with
    | anyRun skipped h => exact ⟨skipped, _, rfl, h⟩
  · rintro ⟨skipped, rest, rfl, h⟩
    exact .anyRun skipped h

theorem fits_anyChar_iff :
    Fits same (.anyChar :: ps) cs ↔ ∃ c rest, cs = c :: rest ∧ Fits same ps rest := by
  constructor
  · intro h
    cases h with
    | anyChar c h => exact ⟨c, _, rfl, h⟩
  · rintro ⟨c, rest, rfl, h⟩
    exact .anyChar c h

theorem fits_literal_iff {l : Char} :
    Fits same (.literal l :: ps) cs ↔
      ∃ c rest, cs = c :: rest ∧ same l c = true ∧ Fits same ps rest := by
  constructor
  · intro h
    cases h with
    | literal hc h => exact ⟨_, _, rfl, hc, h⟩
  · rintro ⟨c, rest, rfl, hc, h⟩
    exact .literal hc h

/-- A run takes no character, or the first one and goes on. -/
theorem fits_anyRun_cons_iff {c : Char} :
    Fits same (.anyRun :: ps) (c :: cs) ↔ Fits same ps (c :: cs) ∨ Fits same (.anyRun :: ps) cs := by
  rw [fits_anyRun_iff, fits_anyRun_iff]
  constructor
  · rintro ⟨skipped, rest, heq, h⟩
    cases skipped with
    | nil => exact .inl (heq ▸ h)
    | cons d skipped =>
      obtain ⟨rfl, rfl⟩ := List.cons.inj heq
      exact .inr ⟨skipped, rest, rfl, h⟩
  · rintro (h | ⟨skipped, rest, rfl, h⟩)
    · exact ⟨[], c :: cs, rfl, h⟩
    · exact ⟨c :: skipped, rest, rfl, h⟩

/-! ## Flags -/

/-- Behind the flag of the whole text stand the flags of the text without its first character. -/
theorem flags_cons (ps : List PatternItem) (c : Char) (cs : List Char) :
    flags same ps (c :: cs) = accepts same ps (c :: cs) :: flags same ps cs := by
  unfold accepts
  induction ps with
  | nil => simp [flags]
  | cons p ps ih =>
    cases p with
    | anyRun =>
      rw [flags, flags, ih]
      rfl
    | anyChar =>
      rw [flags, flags, ih]
      rfl
    | literal l =>
      rw [flags, flags, ih]
      rfl

theorem flags_nil (ps : List PatternItem) : flags same ps [] = [accepts same ps []] := by
  unfold accepts
  induction ps with
  | nil => simp [flags]
  | cons p ps ih =>
    cases p with
    | anyRun =>
      rw [flags, ih]
      rfl
    | anyChar =>
      rw [flags]
      rfl
    | literal l =>
      rw [flags]
      rfl

theorem accepts_nil_nil : accepts same [] [] = true := by
  rw [accepts, flags]
  rfl

theorem accepts_nil_cons (c : Char) : accepts same [] (c :: cs) = false := by
  rw [accepts, flags]
  rfl

theorem accepts_anyRun_nil : accepts same (.anyRun :: ps) [] = accepts same ps [] := by
  rw [accepts, flags, flags_nil]
  exact Bool.or_false _

theorem accepts_anyRun_cons (c : Char) :
    accepts same (.anyRun :: ps) (c :: cs)
      = (accepts same ps (c :: cs) || accepts same (.anyRun :: ps) cs) := by
  rw [accepts, flags, flags_cons, accepts, accepts, flags]
  rfl

theorem accepts_anyChar_nil : accepts same (.anyChar :: ps) [] = false := by
  rw [accepts, flags]
  rfl

theorem accepts_anyChar_cons (c : Char) :
    accepts same (.anyChar :: ps) (c :: cs) = accepts same ps cs := by
  rw [accepts, flags, flags_cons]
  rfl

theorem accepts_literal_nil (l : Char) : accepts same (.literal l :: ps) [] = false := by
  rw [accepts, flags]
  rfl

theorem accepts_literal_cons (l c : Char) :
    accepts same (.literal l :: ps) (c :: cs) = (same l c && accepts same ps cs) := by
  rw [accepts, flags, flags_cons]
  rfl

/-- A text is accepted exactly if the items stand for it.  Below a run the induction is on the text
too, since the run may take its first character. -/
theorem accepts_iff_fits (ps : List PatternItem) (cs : List Char) :
    accepts same ps cs = true ↔ Fits same ps cs := by
  induction ps generalizing cs with
  | nil =>
    rw [fits_nil_iff]
    cases cs with
    | nil => exact iff_of_true accepts_nil_nil rfl
    | cons c cs =>
      rw [accepts_nil_cons]
      exact iff_of_false Bool.false_ne_true (List.cons_ne_nil c cs)
  | cons p ps ih =>
    cases p with
    | anyRun =>
      induction cs with
      | nil =>
        rw [accepts_anyRun_nil, ih, fits_anyRun_iff]
        constructor
        · intro h
          exact ⟨[], [], rfl, h⟩
        · rintro ⟨skipped, rest, heq, h⟩
          obtain ⟨-, rfl⟩ := List.append_eq_nil_iff.1 heq.symm
          exact h
      | cons c cs ihText =>
        rw [accepts_anyRun_cons, Bool.or_eq_true, ih, ihText, fits_anyRun_cons_iff]
    | anyChar =>
      rw [fits_anyChar_iff]
      cases cs with
      | nil =>
        rw [accepts_anyChar_nil]
        exact iff_of_false Bool.false_ne_true (by rintro ⟨c, rest, h, -⟩; cases h)
      | cons c cs =>
        rw [accepts_anyChar_cons, ih]
        constructor
        · intro h
          exact ⟨c, cs, rfl, h⟩
        · rintro ⟨d, rest, heq, h⟩
          obtain ⟨rfl, rfl⟩ := List.cons.inj heq
          exact h
    | literal l =>
      rw [fits_literal_iff]
      cases cs with
      | nil =>
        rw [accepts_literal_nil]
        exact iff_of_false Bool.false_ne_true (by rintro ⟨c, rest, h, -⟩; cases h)
      | cons c cs =>
        rw [accepts_literal_cons, Bool.and_eq_true, ih]
        constructor
        · intro h
          exact ⟨c, cs, rfl, h⟩
        · rintro ⟨d, rest, heq, h⟩
          obtain ⟨rfl, rfl⟩ := List.cons.inj heq
          exact h

/-! ## Reading -/

theorem items_escaped (c : Char) (ps : List Char) :
    items ('\\' :: c :: ps) = .literal c :: items ps := by
  rw [items]

theorem items_run (ps : List Char) : items ('%' :: ps) = .anyRun :: items ps := by
  rw [items]

theorem items_one (ps : List Char) : items ('_' :: ps) = .anyChar :: items ps := by
  rw [items]

theorem items_literal {c : Char} (ps : List Char) (hrun : c ≠ '%') (hone : c ≠ '_')
    (hescape : c ≠ '\\') : items (c :: ps) = .literal c :: items ps := by
  rw [items]
  · rintro d ds rfl
    exact absurd rfl hescape
  · exact fun h => hrun h
  · exact fun h => hone h

theorem items_backslash : items ['\\'] = [.literal '\\'] := rfl

theorem sameChar_iff {a b : Char} : sameChar a b = true ↔ a = b := beq_iff_eq

theorem fits_items_of_like {p s : List Char} (h : Like p s) : Fits sameChar (items p) s := by
  induction h with
  | nil => exact .nil
  | run skipped h ih =>
    rw [items_run]
    exact .anyRun skipped ih
  | one c h ih =>
    rw [items_one]
    exact .anyChar c ih
  | escaped c h ih =>
    rw [items_escaped]
    exact .literal (sameChar_iff.2 rfl) ih
  | backslash => exact .literal (sameChar_iff.2 rfl) .nil
  | literal hrun hone hescape h ih =>
    rw [items_literal _ hrun hone hescape]
    exact .literal (sameChar_iff.2 rfl) ih

/-- The cases are those of reading; at a backslash with nothing behind it the pattern ends. -/
theorem like_of_fits_items {p s : List Char} (h : Fits sameChar (items p) s) : Like p s := by
  induction p using items.induct generalizing s with
  | case1 =>
    rw [fits_nil_iff.1 h]
    exact .nil
  | case2 c ps ih =>
    rw [items_escaped, fits_literal_iff] at h
    obtain ⟨d, rest, rfl, hd, h⟩ := h
    obtain rfl := sameChar_iff.1 hd
    exact .escaped c (ih h)
  | case3 ps ih =>
    rw [items_run, fits_anyRun_iff] at h
    obtain ⟨skipped, rest, rfl, h⟩ := h
    exact .run skipped (ih h)
  | case4 ps ih =>
    rw [items_one, fits_anyChar_iff] at h
    obtain ⟨d, rest, rfl, h⟩ := h
    exact .one d (ih h)
  | case5 c ps hpair hrun hone ih =>
    rw [items, fits_literal_iff] at h
    · obtain ⟨d, rest, rfl, hd, h⟩ := h
      obtain rfl := sameChar_iff.1 hd
      by_cases hescape : c = '\\'
      · cases ps with
        | nil =>
          rw [fits_nil_iff.1 h, hescape]
          exact .backslash
        | cons d ps => exact absurd rfl (hpair d ps hescape)
      · exact .literal hrun hone hescape (ih h)
    all_goals assumption

theorem fits_items_iff_like {p s : List Char} : Fits sameChar (items p) s ↔ Like p s :=
  ⟨like_of_fits_items, fits_items_of_like⟩

/-! ## Regular expressions -/

/-- Whether what stands before is repeated. -/
def Repeated (re : List Char) : Prop := ∃ q rest, re = q :: rest ∧ q ∈ ['*', '+', '?', '{']

/-- What an expression matches behind a text: `^` and `$` hold at the start and the end, `.` is any
character and `.*` any run of them, a character with a meaning of its own stands for itself behind
a backslash, and any other character for itself. -/
inductive Expression : List Char → List Char → List Char → Prop
  | done {before cs : List Char} : Expression [] before cs
  | start {re cs : List Char} (h : Expression re [] cs) : Expression ('^' :: re) [] cs
  | stop {re before : List Char} (h : Expression re before []) : Expression ('$' :: re) before []
  | run {re before cs : List Char} (skipped : List Char) (h : Expression re (before ++ skipped) cs) :
      Expression ('.' :: '*' :: re) before (skipped ++ cs)
  | one {re before cs : List Char} (c : Char) (hre : ¬ Repeated re)
      (h : Expression re (before ++ [c]) cs) : Expression ('.' :: re) before (c :: cs)
  | escaped {re before cs : List Char} {c : Char} (hc : isSpecial c = true) (hre : ¬ Repeated re)
      (h : Expression re (before ++ [c]) cs) : Expression ('\\' :: c :: re) before (c :: cs)
  | plain {re before cs : List Char} {c : Char} (hc : isSpecial c = false) (hre : ¬ Repeated re)
      (h : Expression re (before ++ [c]) cs) : Expression (c :: re) before (c :: cs)

/-- Whether an expression is found somewhere in a text. -/
def Finds (re s : List Char) : Prop :=
  ∃ before rest, s = before ++ rest ∧ Expression re before rest

theorem expression_stop_iff {before cs : List Char} : Expression ['$'] before cs ↔ cs = [] := by
  constructor
  · intro h
    cases h with
    | stop h => rfl
    | plain hc hre h => exact absurd hc (by decide)
  · rintro rfl
    exact .stop .done

theorem expression_start_iff {re before cs : List Char} :
    Expression ('^' :: re) before cs ↔ before = [] ∧ Expression re [] cs := by
  constructor
  · intro h
    cases h with
    | start h => exact ⟨rfl, h⟩
    | plain hc hre h => exact absurd hc (by decide)
  · rintro ⟨rfl, h⟩
    exact .start h

theorem expression_run_iff {re before cs : List Char} :
    Expression ('.' :: '*' :: re) before cs ↔
      ∃ skipped rest, cs = skipped ++ rest ∧ Expression re (before ++ skipped) rest := by
  constructor
  · intro h
    cases h with
    | run skipped h => exact ⟨skipped, _, rfl, h⟩
    | one c hre h => exact absurd ⟨'*', re, rfl, by decide⟩ hre
    | plain hc hre h => exact absurd hc (by decide)
  · rintro ⟨skipped, rest, rfl, h⟩
    exact .run skipped h

theorem expression_one_iff {re before cs : List Char} (hre : ¬ Repeated re) :
    Expression ('.' :: re) before cs ↔
      ∃ c rest, cs = c :: rest ∧ Expression re (before ++ [c]) rest := by
  constructor
  · intro h
    cases h with
    | run skipped h => exact absurd ⟨'*', _, rfl, by decide⟩ hre
    | one c hre h => exact ⟨c, _, rfl, h⟩
    | plain hc hre h => exact absurd hc (by decide)
  · rintro ⟨c, rest, rfl, h⟩
    exact .one c hre h

/-- A literal stands for itself, whether or not it is written behind a backslash. -/
theorem expression_literal_iff {l : Char} {re before cs : List Char} (hre : ¬ Repeated re) :
    Expression (itemRegex (.literal l) ++ re) before cs ↔
      ∃ rest, cs = l :: rest ∧ Expression re (before ++ [l]) rest := by
  cases hl : isSpecial l with
  | true =>
    have hwritten : itemRegex (.literal l) ++ re = '\\' :: l :: re := by simp [itemRegex, hl]
    rw [hwritten]
    constructor
    · intro h
      cases h with
      | escaped hc hre h => exact ⟨_, rfl, h⟩
      | plain hc hre h => exact absurd hc (by decide)
    · rintro ⟨rest, rfl, h⟩
      exact .escaped hl hre h
  | false =>
    have hwritten : itemRegex (.literal l) ++ re = l :: re := by simp [itemRegex, hl]
    rw [hwritten]
    constructor
    · intro h
      cases h with
      | start h => exact absurd hl (by decide)
      | stop h => exact absurd hl (by decide)
      | run skipped h => exact absurd hl (by decide)
      | one c hre h => exact absurd hl (by decide)
      | escaped hc hre h => exact absurd hl (by decide)
      | plain hc hre h => exact ⟨_, rfl, h⟩
    · rintro ⟨rest, rfl, h⟩
      exact .plain hl hre h

/-- No item is written with a repetition in front. -/
theorem not_repeated_items (ps : List PatternItem) :
    ¬ Repeated (ps.flatMap itemRegex ++ ['$']) := by
  rintro ⟨q, rest, heq, hq⟩
  cases ps with
  | nil =>
    obtain ⟨rfl, -⟩ := List.cons.inj heq
    exact absurd hq (by decide)
  | cons p ps =>
    cases p with
    | anyRun =>
      obtain ⟨rfl, -⟩ := List.cons.inj heq
      exact absurd hq (by decide)
    | anyChar =>
      obtain ⟨rfl, -⟩ := List.cons.inj heq
      exact absurd hq (by decide)
    | literal l =>
      cases hl : isSpecial l with
      | true =>
        rw [List.flatMap_cons, itemRegex, if_pos hl] at heq
        obtain ⟨rfl, -⟩ := List.cons.inj heq
        exact absurd hq (by decide)
      | false =>
        rw [List.flatMap_cons, itemRegex, if_neg (Bool.eq_false_iff.1 hl)] at heq
        obtain ⟨rfl, -⟩ := List.cons.inj heq
        simp only [List.mem_cons, List.not_mem_nil, or_false] at hq
        rcases hq with rfl | rfl | rfl | rfl
        all_goals exact absurd hl (by decide)

/-- Wherever the items begin, their expression matches the texts they stand for. -/
theorem expression_items_iff (ps : List PatternItem) (before cs : List Char) :
    Expression (ps.flatMap itemRegex ++ ['$']) before cs ↔ Fits sameChar ps cs := by
  induction ps generalizing before cs with
  | nil => rw [fits_nil_iff, List.flatMap_nil, List.nil_append, expression_stop_iff]
  | cons p ps ih =>
    rw [List.flatMap_cons, List.append_assoc]
    cases p with
    | anyRun =>
      rw [fits_anyRun_iff]
      refine expression_run_iff.trans ?_
      constructor
      · rintro ⟨skipped, rest, rfl, h⟩
        exact ⟨skipped, rest, rfl, (ih _ _).1 h⟩
      · rintro ⟨skipped, rest, rfl, h⟩
        exact ⟨skipped, rest, rfl, (ih _ _).2 h⟩
    | anyChar =>
      rw [fits_anyChar_iff]
      refine (expression_one_iff (not_repeated_items ps)).trans ?_
      constructor
      · rintro ⟨c, rest, rfl, h⟩
        exact ⟨c, rest, rfl, (ih _ _).1 h⟩
      · rintro ⟨c, rest, rfl, h⟩
        exact ⟨c, rest, rfl, (ih _ _).2 h⟩
    | literal l =>
      rw [fits_literal_iff, expression_literal_iff (not_repeated_items ps)]
      constructor
      · rintro ⟨rest, rfl, h⟩
        exact ⟨l, rest, rfl, sameChar_iff.2 rfl, (ih _ _).1 h⟩
      · rintro ⟨c, rest, rfl, hc, h⟩
        obtain rfl := sameChar_iff.1 hc
        exact ⟨rest, rfl, (ih _ _).2 h⟩

/-- The expression of a pattern is found in the texts the pattern stands for: with both anchors it
can only be found as the whole text. -/
theorem finds_regex_iff_like (p : String) (s : List Char) :
    Finds (regex p).toList s ↔ Like p.toList s := by
  rw [← fits_items_iff_like, ← expression_items_iff _ []]
  unfold Finds regex
  rw [String.toList_ofList, List.cons_append]
  constructor
  · rintro ⟨before, rest, rfl, h⟩
    obtain ⟨rfl, hitems⟩ := expression_start_iff.1 h
    exact hitems
  · intro h
    exact ⟨[], s, rfl, .start h⟩

end Pattern

/-! ## Evaluation -/

namespace Predicate

/-- Whatever the test of size, where both sides have a value and the pattern passes it, a match has a
truth value. -/
theorem likeHolds_eq (tooLarge : List PatternItem → Bool) (same : Char → Char → Bool)
    {subject pattern : Value} (hs : subject.isNull = false) (hp : pattern.isNull = false)
    (hsize : tooLarge (Pattern.items pattern.text.toList) = false) :
    likeHolds tooLarge same subject pattern
      = .ok (Pattern.accepts same (Pattern.items pattern.text.toList) subject.text.toList) := by
  simp [likeHolds, hs, hp, hsize]

/-- **A comparison with `like` is true exactly of the texts in the language of its pattern.**  It has
a truth value for every pattern that is not too large, and its expression is found in the same
texts. -/
theorem evaluate_like (session : Variables) (record : Record) {left right : Predicate}
    {subject pattern : Value} (hleft : leafValue session record left = .ok subject)
    (hright : leafValue session record right = .ok pattern) (hs : subject.isNull = false)
    (hp : pattern.isNull = false)
    (hsize : Pattern.isTooLarge (Pattern.items pattern.text.toList) = false) :
    ∃ b, evaluate session record (.compare .like left right) = .ok b ∧
      (b = true ↔ Pattern.Like pattern.text.toList subject.text.toList) ∧
      (Pattern.Finds (Pattern.regex pattern.text).toList subject.text.toList ↔
        Pattern.Like pattern.text.toList subject.text.toList) := by
  refine ⟨Pattern.accepts Pattern.sameChar (Pattern.items pattern.text.toList) subject.text.toList,
    ?_, ?_, Pattern.finds_regex_iff_like _ _⟩
  · have hcompare : evaluate session record (.compare .like left right)
        = likeHolds Pattern.isTooLarge Pattern.sameChar subject pattern := by
      rw [evaluate, hleft, hright]
      rfl
    rw [hcompare, likeHolds_eq _ _ hs hp hsize]
  · rw [Pattern.accepts_iff_fits, Pattern.fits_items_iff_like]

/-- An escaped wildcard, both wildcards, a character with a meaning in expressions, a run over a line
break and a backslash at the end. -/
theorem evaluate_like_mixed :
    evaluate .empty (Table.ofList [("a", .string "1%x.\n\\")])
      (.compare .like (.field "a") (.string "1\\%_.%\\")) = .ok true := by
  have hleft : leafValue .empty (Table.ofList [("a", .string "1%x.\n\\")]) (.field "a")
      = .ok (.string "1%x.\n\\") := rfl
  have hright : leafValue .empty (Table.ofList [("a", .string "1%x.\n\\")])
      (.string "1\\%_.%\\") = .ok (.string "1\\%_.%\\") := rfl
  have hlike : Pattern.Like ['1', '\\', '%', '_', '.', '%', '\\'] ['1', '%', 'x', '.', '\n', '\\'] :=
    .literal (by decide) (by decide) (by decide) <| .escaped '%' <| .one 'x' <|
      .literal (by decide) (by decide) (by decide) <| .run ['\n'] .backslash
  obtain ⟨b, h, hb, -⟩ := evaluate_like _ _ hleft hright rfl rfl (by decide)
  rw [h, hb.2 hlike]

end Predicate

end RecordFilter
