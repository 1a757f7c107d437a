import RecordFilter.Proofs.Like
import RecordFilter.Proofs.Text.Case
import RecordFilter.Sql.Condition
import Mathlib.Data.Bool.AllAny

/-!
# Matching without regard to case

Both engines match a text without regard to case by mapping the text and the
pattern first: in memory every character is folded, in a dialect that folds only the
column both sides are brought to lower case as whole texts.

    in memory:        Like (p.map foldChar) (s.map foldChar)     (evaluate_ilike)
    in the dialect:   Like (lowerChars p) (lowerChars s)

Mapping the characters of a pattern and of a text compares them by their images
(like_map_iff), and two comparisons that agree on the characters at hand match alike
(flags_congr).  So the engines agree on the texts over an alphabet exactly where
folding and lower case tell the same letters of it apart, and no letter of it is
mapped with regard to its place or to two characters (evaluate_ilike_iff_lower).
-/

namespace RecordFilter

namespace Pattern

/-! ## Mapped characters -/

/-- The characters that are not taken for themselves in a pattern. -/
def wildcards : List Char := ['%', '_', '\\']

/-- Whether a mapping of characters leaves the wildcards alone and makes no new ones. -/
def KeepsWildcards (f : Char → Char) : Prop := ∀ w ∈ wildcards, ∀ c, f c = w ↔ c = w

theorem keepsWildcards_of_reaches {f : Char → Char} (hf : ∀ c, Reaches c (f c))
    (hfix : ∀ w ∈ wildcards, f w = w) : KeepsWildcards f := by
  intro w hw c
  have hlow : ∀ w ∈ wildcards, w.toNat < 0x61 := List.all_iff_forall_prop.1 rfl
  constructor
  · intro h
    have heq := eq_of_reaches (hf c) (h ▸ hlow w hw)
    rw [← heq, h]
  · rintro rfl
    exact hfix c hw

theorem keepsWildcards_foldChar : KeepsWildcards foldChar :=
  keepsWildcards_of_reaches reaches_foldChar (List.all_iff_forall_prop.1 rfl)

theorem keepsWildcards_lowerChar : KeepsWildcards lowerChar :=
  keepsWildcards_of_reaches reaches_lowerChar (List.all_iff_forall_prop.1 rfl)

/-- Comparing two characters by what they are mapped to. -/
def sameUnder (f : Char → Char) (a b : Char) : Bool := f a == f b

theorem sameUnder_iff {f : Char → Char} {a b : Char} : sameUnder f a b = true ↔ f a = f b :=
  beq_iff_eq

def mapItem (f : Char → Char) : PatternItem → PatternItem
  | .anyRun => .anyRun
  | .anyChar => .anyChar
  | .literal c => .literal (f c)

/-! ## Mapped patterns -/

theorem items_map {f : Char → Char} (hf : KeepsWildcards f) (p : List Char) :
    items (p.map f) = (items p).map (mapItem f) := by
  have hrunImage := hf '%' (by decide)
  have honeImage := hf '_' (by decide)
  have hescapeImage := hf '\\' (by decide)
  induction p using items.induct with
  | case1 => rw [List.map_nil, items, List.map_nil]
  | case2 c ps ih =>
    rw [List.map_cons, (hescapeImage '\\').2 rfl, List.map_cons, items_escaped, items_escaped, ih]
    rfl
  | case3 ps ih =>
    rw [List.map_cons, (hrunImage '%').2 rfl, items_run, items_run, ih]
    rfl
  | case4 ps ih =>
    rw [List.map_cons, (honeImage '_').2 rfl, items_one, items_one, ih]
    rfl
  | case5 c ps hpair hrun hone ih =>
    have hrun' : f c ≠ '%' := fun h => hrun ((hrunImage c).1 h)
    have hone' : f c ≠ '_' := fun h => hone ((honeImage c).1 h)
    by_cases hescape : c = '\\'
    · cases ps with
      | nil =>
        have hitem : mapItem f (.literal '\\') = .literal '\\' := by
          rw [mapItem, (hescapeImage '\\').2 rfl]
        rw [hescape, List.map_cons, (hescapeImage '\\').2 rfl, List.map_nil, items_backslash,
          List.map_cons, hitem, List.map_nil]
      | cons d ps => exact absurd rfl (hpair d ps hescape)
    · have hescape' : f c ≠ '\\' := fun h => hescape ((hescapeImage c).1 h)
      rw [List.map_cons, items_literal _ hrun' hone' hescape', items_literal _ hrun hone hescape, ih]
      rfl

theorem flagsOne_map (ok : Char → Bool) (f : Char → Char) (cs : List Char) (next : List Bool) :
    flagsOne ok (cs.map f) next = flagsOne (fun c => ok (f c)) cs next := by
  induction cs generalizing next with
  | nil => rfl
  | cons c cs ih =>
    cases next with
    | nil => rfl
    | cons b next =>
      unfold flagsOne
      rw [← ih]
      rfl

theorem flags_map (f : Char → Char) (ps : List PatternItem) (cs : List Char) :
    flags sameChar (ps.map (mapItem f)) (cs.map f) = flags (sameUnder f) ps cs := by
  induction ps with
  | nil =>
    induction cs with
    | nil => simp [flags]
    | cons c cs ih =>
      rw [List.map_nil] at ih ⊢
      rw [List.map_cons, flags, flags, ih]
  | cons p ps ih =>
    rw [List.map_cons]
    cases p with
    | anyRun => rw [mapItem, flags, flags, ih]
    | anyChar => rw [mapItem, flags, flags, ih, flagsOne_map]
    | literal l =>
      rw [mapItem, flags, flags, ih, flagsOne_map]
      rfl

/-- A mapped pattern stands for the mapped texts that the items stand for up to the mapping. -/
theorem like_map_iff {f : Char → Char} (hf : KeepsWildcards f) (p s : List Char) :
    Like (p.map f) (s.map f) ↔ accepts (sameUnder f) (items p) s = true := by
  rw [← fits_items_iff_like, ← accepts_iff_fits, items_map hf, accepts, flags_map, accepts]

/-! ## Comparisons that agree -/

theorem flagsOne_congr {ok ok' : Char → Bool} {cs : List Char} (h : ∀ c ∈ cs, ok c = ok' c)
    (next : List Bool) : flagsOne ok cs next = flagsOne ok' cs next := by
  induction cs generalizing next with
  | nil => rfl
  | cons c cs ih =>
    cases next with
    | nil => rfl
    | cons b next =>
      unfold flagsOne
      rw [h c List.mem_cons_self, ih (fun d hd => h d (List.mem_cons_of_mem c hd))]

theorem flags_congr {same same' : Char → Char → Bool} {ps : List PatternItem} {cs : List Char}
    (h : ∀ l, .literal l ∈ ps → ∀ c ∈ cs, same l c = same' l c) :
    flags same ps cs = flags same' ps cs := by
  induction ps with
  | nil =>
    induction cs with
    | nil => simp [flags]
    | cons c cs ih =>
      rw [flags, flags, ih (fun l hl => by cases hl)]
  | cons p ps ih =>
    have hrest := ih (fun l hl => h l (List.mem_cons_of_mem p hl))
    cases p with
    | anyRun => rw [flags, flags, hrest]
    | anyChar => rw [flags, flags, hrest]
    | literal l => rw [flags, flags, hrest, flagsOne_congr (h l List.mem_cons_self)]

/-- The literals of a pattern are characters of its text. -/
theorem mem_of_literal_mem_items {p : List Char} {l : Char} (h : .literal l ∈ items p) : l ∈ p := by
  induction p using items.induct with
  | case1 =>
    rw [items] at h
    cases h
  | case2 c ps ih =>
    rw [items_escaped] at h
    rcases List.mem_cons.1 h with h | h
    · obtain rfl := PatternItem.literal.inj h
      exact List.mem_cons_of_mem '\\' List.mem_cons_self
    · exact List.mem_cons_of_mem '\\' (List.mem_cons_of_mem c (ih h))
  | case3 ps ih =>
    rw [items_run] at h
    rcases List.mem_cons.1 h with h | h
    · cases h
    · exact List.mem_cons_of_mem '%' (ih h)
  | case4 ps ih =>
    rw [items_one] at h
    rcases List.mem_cons.1 h with h | h
    · cases h
    · exact List.mem_cons_of_mem '_' (ih h)
  | case5 c ps hpair hrun hone ih =>
    rw [items] at h
    · rcases List.mem_cons.1 h with h | h
      · obtain rfl := PatternItem.literal.inj h
        exact List.mem_cons_self
      · exact List.mem_cons_of_mem c (ih h)
    all_goals assumption

end Pattern

/-! ## Alphabets -/

/-- What a dialect that folds only the column makes of a match: the text in lower case is in the
language of the folded pattern. -/
def MatchesFolded (subject pattern : String) : Prop :=
  ∃ folded, (Term.string pattern).folded = .string folded ∧
    Pattern.Like folded.toList (lower subject).toList

theorem matchesFolded_iff {s p : String} :
    MatchesFolded s p ↔ Pattern.Like (lowerChars p.toList) (lowerChars s.toList) := by
  have hlower : ∀ t : String, (lower t).toList = lowerChars t.toList := by
    intro t
    rw [lower, String.toList_ofList]
  rw [← hlower s, ← hlower p]
  constructor
  · rintro ⟨folded, hfolded, h⟩
    obtain rfl := Term.string.inj hfolded
    exact h
  · intro h
    exact ⟨lower p, rfl, h⟩

/-- Whether both engines match the texts over an alphabet alike; a pattern may have wildcards too. -/
def EnginesAgree (letters : Char → Prop) : Prop :=
  ∀ (session : Variables) (record : Record) (left right : Predicate) (s p : String),
    left.leafValue session record = .ok (.string s) →
    right.leafValue session record = .ok (.string p) →
    Pattern.isTooLarge (Pattern.items p.toList) = false →
    (∀ c ∈ s.toList, letters c) → (∀ c ∈ p.toList, letters c ∨ c ∈ Pattern.wildcards) →
    (Predicate.evaluate session record (.compare .ilike left right) = .ok true ↔ MatchesFolded s p)

/-- Over an alphabet without the two letters that lower case treats in another way, it maps the
characters of a text one by one. -/
theorem lowerChars_over {letters : Char → Prop} (hsigma : ¬ letters 'Σ') (hdotted : ¬ letters 'İ')
    {cs : List Char} (h : ∀ c ∈ cs, letters c ∨ c ∈ Pattern.wildcards) :
    lowerChars cs = cs.map lowerChar := by
  apply lowerChars_eq_map
  · intro hmem
    rcases h _ hmem with hl | hw
    · exact hsigma hl
    · exact absurd hw (by decide)
  · intro hmem
    rcases h _ hmem with hl | hw
    · exact hdotted hl
    · exact absurd hw (by decide)

/-- Whether folding and lower case tell the same letters of an alphabet apart, and lower case maps
each of them to one character wherever it stands. -/
structure FoldsAsLower (letters : Char → Prop) : Prop where
  sigma : ¬ letters 'Σ'
  dotted : ¬ letters 'İ'
  same : ∀ a b, letters a → letters b → (foldChar a = foldChar b ↔ lowerChar a = lowerChar b)

namespace FoldsAsLower

variable {letters : Char → Prop}

/-- A wildcard that is escaped is told apart from every letter by both mappings. -/
theorem same_wildcard {w c : Char} (hw : w ∈ Pattern.wildcards) :
    foldChar w = foldChar c ↔ lowerChar w = lowerChar c := by
  have hfold := Pattern.keepsWildcards_foldChar w hw
  have hlower := Pattern.keepsWildcards_lowerChar w hw
  rw [(hfold w).2 rfl, (hlower w).2 rfl, eq_comm, hfold c, eq_comm (a := w), hlower c]

/-- Over such an alphabet lower case compares the characters as folding does. -/
theorem like_iff (h : FoldsAsLower letters) {s p : List Char} (hs : ∀ c ∈ s, letters c)
    (hp : ∀ c ∈ p, letters c ∨ c ∈ Pattern.wildcards) :
    Pattern.Like (p.map foldChar) (s.map foldChar) ↔
      Pattern.Like (lowerChars p) (lowerChars s) := by
  rw [lowerChars_over h.sigma h.dotted hp,
    lowerChars_over h.sigma h.dotted (fun c hc => .inl (hs c hc)),
    Pattern.like_map_iff Pattern.keepsWildcards_foldChar,
    Pattern.like_map_iff Pattern.keepsWildcards_lowerChar]
  have hsame : ∀ l, .literal l ∈ Pattern.items p → ∀ c ∈ s,
      Pattern.sameUnder foldChar l c = Pattern.sameUnder lowerChar l c := by
    intro l hl c hc
    rw [Bool.eq_iff_iff, Pattern.sameUnder_iff, Pattern.sameUnder_iff]
    rcases hp l (Pattern.mem_of_literal_mem_items hl) with hletter | hw
    · exact h.same l c hletter (hs c hc)
    · exact same_wildcard hw
  rw [Pattern.accepts, Pattern.accepts, Pattern.flags_congr hsame]

end FoldsAsLower

/-! ## Evaluation -/

namespace Predicate

/-- In memory a text and a pattern are folded character by character. -/
theorem evaluate_ilike (session : Variables) (record : Record) {left right : Predicate}
    {s p : String} (hleft : leafValue session record left = .ok (.string s))
    (hright : leafValue session record right = .ok (.string p))
    (hsize : Pattern.isTooLarge (Pattern.items p.toList) = false) :
    ∃ b, evaluate session record (.compare .ilike left right) = .ok b ∧
      (b = true ↔ Pattern.Like (p.toList.map foldChar) (s.toList.map foldChar)) := by
  have hcompare : evaluate session record (.compare .ilike left right)
      = likeHolds Pattern.isTooLarge (Pattern.sameUnder foldChar) (.string s) (.string p) := by
    rw [evaluate, hleft, hright]
    rfl
  refine ⟨Pattern.accepts (Pattern.sameUnder foldChar) (Pattern.items p.toList) s.toList, ?_, ?_⟩
  · rw [hcompare]
    exact likeHolds_eq _ _ rfl rfl hsize
  · rw [Pattern.like_map_iff Pattern.keepsWildcards_foldChar]

end Predicate

/-- Engines that agree match the folded texts and the texts in lower case alike. -/
theorem EnginesAgree.like_iff {letters : Char → Prop} (h : EnginesAgree letters) {s p : List Char}
    (hs : ∀ c ∈ s, letters c) (hp : ∀ c ∈ p, letters c ∨ c ∈ Pattern.wildcards)
    (hsize : Pattern.isTooLarge (Pattern.items p) = false) :
    Pattern.Like (p.map foldChar) (s.map foldChar) ↔
      Pattern.Like (lowerChars p) (lowerChars s) := by
  have hs' : ∀ c ∈ (String.ofList s).toList, letters c := by rwa [String.toList_ofList]
  have hp' : ∀ c ∈ (String.ofList p).toList, letters c ∨ c ∈ Pattern.wildcards := by
    rwa [String.toList_ofList]
  have hsize' : Pattern.isTooLarge (Pattern.items (String.ofList p).toList) = false := by
    rwa [String.toList_ofList]
  have hleft : (Predicate.string (String.ofList s)).leafValue .empty .empty
      = .ok (.string (String.ofList s)) := rfl
  have hright : (Predicate.string (String.ofList p)).leafValue .empty .empty
      = .ok (.string (String.ofList p)) := rfl
  obtain ⟨b, hevaluate, hb⟩ := Predicate.evaluate_ilike _ _ hleft hright hsize'
  have hagree := h _ _ _ _ _ _ hleft hright hsize' hs' hp'
  rw [hevaluate, Except.ok.injEq, hb, matchesFolded_iff] at hagree
  rwa [String.toList_ofList, String.toList_ofList] at hagree

theorem like_escaped_iff {c d : Char} : Pattern.Like ['\\', c] [d] ↔ c = d := by
  constructor
  · intro h
    cases h with
    | escaped c h => rfl
    | literal hrun hone hescape h => exact absurd rfl hescape
  · rintro rfl
    exact .escaped c .nil

/-- At the end of a word a capital sigma becomes the final one, which the other does not match. -/
theorem not_like_finalSigma : ¬ Pattern.Like ['%', 'σ'] ['σ', 'ς'] := by
  rw [← Pattern.fits_items_iff_like, ← Pattern.accepts_iff_fits, Pattern.items_run,
    Pattern.items_literal [] (by decide) (by decide) (by decide), Pattern.items]
  simp [Pattern.accepts_anyRun_cons, Pattern.accepts_anyRun_nil, Pattern.accepts_literal_cons,
    Pattern.accepts_literal_nil, Pattern.accepts_nil_cons, Pattern.sameChar]

/-- The letters that are told apart are found by single letters, and the two that lower case treats
in another way by the texts where it does. -/
theorem foldsAsLower_of_enginesAgree {letters : Char → Prop} (h : EnginesAgree letters) :
    FoldsAsLower letters := by
  have hsigma : ¬ letters 'Σ' := by
    intro hletter
    have hs : ∀ c ∈ ['Σ', 'Σ'], letters c := by simp [hletter]
    have hp : ∀ c ∈ ['%', 'Σ'], letters c ∨ c ∈ Pattern.wildcards := by
      simp [hletter, Pattern.wildcards]
    have hlike := h.like_iff hs hp rfl
    have hfolded : Pattern.Like ['%', 'σ'] ['σ', 'σ'] :=
      .run ['σ'] (.literal (by decide) (by decide) (by decide) .nil)
    have hlower : lowerChars ['%', 'Σ'] = ['%', 'σ'] ∧ lowerChars ['Σ', 'Σ'] = ['σ', 'ς'] := by
      decide +kernel
    have hfold : ['%', 'Σ'].map foldChar = ['%', 'σ'] ∧ ['Σ', 'Σ'].map foldChar = ['σ', 'σ'] := by
      decide +kernel
    rw [hfold.1, hfold.2, hlower.1, hlower.2] at hlike
    exact not_like_finalSigma (hlike.1 hfolded)
  have hdotted : ¬ letters 'İ' := by
    intro hletter
    have hs : ∀ c ∈ ['İ'], letters c := by simp [hletter]
    have hp : ∀ c ∈ ['_'], letters c ∨ c ∈ Pattern.wildcards := by simp [Pattern.wildcards]
    have hlike := (h.like_iff hs hp rfl).1 (.one _ .nil)
    have hlower : lowerChars ['_'] = ['_'] ∧ lowerChars ['İ'] = ['i', '\u0307'] := by
      decide +kernel
    rw [hlower.1, hlower.2] at hlike
    cases hlike with
    | one c hrest => cases hrest
  refine ⟨hsigma, hdotted, fun a b ha hb => ?_⟩
  have hs : ∀ c ∈ [b], letters c := by simp [hb]
  have hp : ∀ c ∈ ['\\', a], letters c ∨ c ∈ Pattern.wildcards := by
    simp [ha, Pattern.wildcards]
  have hfold : ['\\', a].map foldChar = ['\\', foldChar a] := rfl
  have hlower : ['\\', a].map lowerChar = ['\\', lowerChar a] := rfl
  have hlike := h.like_iff hs hp rfl
  rw [lowerChars_over hsigma hdotted hp, lowerChars_over hsigma hdotted (fun c hc => .inl (hs c hc)),
    hfold, hlower] at hlike
  exact like_escaped_iff.symm.trans (hlike.trans like_escaped_iff)

namespace Predicate

/-- **`ilike` compares texts folded character by character, and means the same as comparing them in
lower case exactly over the alphabets that fold as they are lowered.** -/
theorem evaluate_ilike_iff_lower {session : Variables} {record : Record} {left right : Predicate}
    {s p : String} (hleft : leafValue session record left = .ok (.string s))
    (hright : leafValue session record right = .ok (.string p))
    (hsize : Pattern.isTooLarge (Pattern.items p.toList) = false) (letters : Char → Prop) :
    (∃ b, evaluate session record (.compare .ilike left right) = .ok b ∧
      (b = true ↔ Pattern.Like (p.toList.map foldChar) (s.toList.map foldChar))) ∧
    (EnginesAgree letters ↔ FoldsAsLower letters) := by
  refine ⟨evaluate_ilike session record hleft hright hsize, ?_⟩
  constructor
  · exact foldsAsLower_of_enginesAgree
  · intro h session record left right s p hleft hright hsize hs hp
    obtain ⟨b, hevaluate, hb⟩ := evaluate_ilike session record hleft hright hsize
    rw [hevaluate, Except.ok.injEq, hb, matchesFolded_iff]
    exact h.like_iff hs hp

/-- The engines agree over ASCII, and not over all characters. -/
theorem evaluate_ilike_iff_lower_ascii :
    evaluate .empty .empty (.compare .ilike (.string "OK") (.string "o_")) = .ok true ∧
      EnginesAgree (fun c => c.toNat < 128) ∧ ¬ EnginesAgree (fun _ => True) := by
  have hleft : leafValue .empty .empty (.string "OK") = .ok (.string "OK") := rfl
  have hright : leafValue .empty .empty (.string "o_") = .ok (.string "o_") := rfl
  have hboth := evaluate_ilike_iff_lower hleft hright rfl
  obtain ⟨⟨b, hevaluate, hb⟩, hascii⟩ := hboth fun c => c.toNat < 128
  obtain ⟨-, hall⟩ := hboth fun _ => True
  have hlike : Pattern.Like ("o_".toList.map foldChar) ("OK".toList.map foldChar) :=
    .literal (by decide) (by decide) (by decide) (.one _ .nil)
  refine ⟨?_, hascii.2 ⟨by decide, by decide, fun a b ha hb => ?_⟩, fun h => (hall.1 h).sigma trivial⟩
  · rw [hevaluate, hb.2 hlike]
  · rw [foldChar_of_ascii ha, foldChar_of_ascii hb]

end Predicate

end RecordFilter
