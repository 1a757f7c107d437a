import RecordFilter.Text.Case

/-!
# What the case mappings reach

The mappings are tables of runs, so a statement about all characters is one about
the runs: a character is mapped to itself or into the target of a run it lies in
(reaches_lowerChar, reaches_foldChar).  No target lies before the small letters,
which leaves punctuation alone (eq_of_reaches), and two characters beyond ASCII are
mapped into it, the long `s` and the Kelvin sign (reaches_ascii).  Where there is
no capital sigma and no `İ`, the lower case of a text is that of its characters
(lowerChars_eq_map).
-/

namespace RecordFilter

/-! ## Runs -/

/-- A code point with an image lies in a run, and its image as far behind the run's target. -/
theorem mapRuns?_eq_some {n m : Nat} {rs : List CaseRun} (h : mapRuns? n rs = some m) :
    ∃ r ∈ rs, r.first ≤ n ∧ n ≤ r.last ∧ m = r.target + (n - r.first) := by
  induction rs with
  | nil => cases h
  | cons r rs ih =>
    unfold mapRuns? at h
    split at h
    · cases h
    · rename_i hfirst
      split at h
      · rename_i hlast
        refine ⟨r, List.mem_cons_self, by omega, hlast.1, ?_⟩
        exact (Option.some.inj h).symm
      · obtain ⟨s, hs, hrest⟩ := ih h
        exact ⟨s, List.mem_cons_of_mem r hs, hrest⟩

/-- The targets start with the small letters and are code points of characters. -/
theorem caseRuns_target : ∀ r ∈ lowerRuns ++ foldRuns, 0x61 ≤ r.target ∧
    (r.target + (r.last - r.first) < 0xD800 ∨
      0xDFFF < r.target ∧ r.target + (r.last - r.first) < 0x110000) := by
  decide +kernel

/-- The runs from beyond ASCII into it: the long `s` and the Kelvin sign. -/
theorem caseRuns_ascii : ∀ r ∈ lowerRuns ++ foldRuns, r.target < 128 → 128 ≤ r.last →
    r.first = r.last ∧ (r.first = 0x17F ∧ r.target = 0x73 ∨ r.first = 0x212A ∧ r.target = 0x6B) := by
  decide +kernel

theorem toNat_ofNat_image {r : CaseRun} (hr : r ∈ lowerRuns ++ foldRuns) {n : Nat}
    (hlast : n ≤ r.last) :
    (Char.ofNat (r.target + (n - r.first))).toNat = r.target + (n - r.first) := by
  obtain ⟨-, hvalid⟩ := caseRuns_target r hr
  have hchar : (r.target + (n - r.first)).isValidChar := by
    unfold Nat.isValidChar
    omega
  rw [Char.ofNat, dif_pos hchar]
  rfl

/-- What a mapping makes of a character: itself, or a character in the target of one of the runs. -/
def Reaches (c d : Char) : Prop :=
  d = c ∨ ∃ r ∈ lowerRuns ++ foldRuns, r.first ≤ c.toNat ∧ c.toNat ≤ r.last ∧
    d.toNat = r.target + (c.toNat - r.first)

theorem reaches_of_mapRuns? {c : Char} {m : Nat} {rs : List CaseRun}
    (hrs : ∀ r ∈ rs, r ∈ lowerRuns ++ foldRuns) (h : mapRuns? c.toNat rs = some m) :
    Reaches c (Char.ofNat m) := by
  obtain ⟨r, hr, hfirst, hlast, rfl⟩ := mapRuns?_eq_some h
  exact .inr ⟨r, hrs r hr, hfirst, hlast, toNat_ofNat_image (hrs r hr) hlast⟩

/-! ## Characters -/

theorem reaches_lowerChar (c : Char) : Reaches c (lowerChar c) := by
  unfold lowerChar
  split
  · rename_i n h
    exact reaches_of_mapRuns? (fun r hr => List.mem_append_left foldRuns hr) h
  · exact .inl rfl

/-- In ASCII folding is the lower case. -/
theorem foldChar_of_ascii {c : Char} (h : c.toNat < 128) : foldChar c = lowerChar c := by
  have hall : ∀ n < 128, foldChar (Char.ofNat n) = lowerChar (Char.ofNat n) := by
    decide +kernel
  have hc := hall c.toNat h
  rwa [Char.ofNat_toNat] at hc

theorem reaches_foldChar (c : Char) : Reaches c (foldChar c) := by
  by_cases hascii : c.toNat < 128
  · rw [foldChar_of_ascii hascii]
    exact reaches_lowerChar c
  · unfold foldChar
    rw [if_neg hascii]
    split
    · rename_i n h
      exact reaches_of_mapRuns? (fun r hr => List.mem_append_right lowerRuns hr) h
    · exact reaches_lowerChar c

/-- A character before the small letters is reached from itself alone. -/
theorem eq_of_reaches {c d : Char} (h : Reaches c d) (hd : d.toNat < 0x61) : d = c := by
  rcases h with h | ⟨r, hr, hfirst, hlast, himage⟩
  · exact h
  · obtain ⟨htarget, -⟩ := caseRuns_target r hr
    omega

/-- Two characters beyond ASCII are mapped into it. -/
theorem reaches_ascii {c d : Char} (h : Reaches c d) (hc : 128 ≤ c.toNat) (hd : d.toNat < 128) :
    c.toNat = 0x17F ∧ d.toNat = 0x73 ∨ c.toNat = 0x212A ∧ d.toNat = 0x6B := by
  rcases h with h | ⟨r, hr, hfirst, hlast, himage⟩
  · rw [h] at hd
    omega
  · have hrun := caseRuns_ascii r hr (by omega) (by omega)
    omega

/-- What folds to a character of ASCII other than `s` is lowered to it in ASCII, or is the Kelvin sign. -/
theorem toLower_of_foldChar {c d : Char} (h : foldChar c = d) (hd : d.toNat < 128) (hs : d ≠ 's')
    (hkelvin : c ≠ '\u212A') : c.toLower = d := by
  by_cases hc : c.toNat < 128
  · unfold foldChar at h
    rwa [if_pos hc] at h
  · rcases reaches_ascii (reaches_foldChar c) (by omega) (by rwa [h]) with ⟨-, hlong⟩ | ⟨hcode, -⟩
    · rw [h] at hlong
      exact absurd (Char.toNat_inj.1 hlong) hs
    · exact absurd (Char.toNat_inj.1 hcode) hkelvin

/-! ## Texts -/

/-- No capital sigma looks at the letters around it and no `İ` becomes two characters. -/
theorem lowerFrom_eq_map (before : List Char) {cs : List Char} (hsigma : 'Σ' ∉ cs)
    (hdotted : 'İ' ∉ cs) : lowerFrom before cs = cs.map lowerChar := by
  induction cs generalizing before with
  | nil => rfl
  | cons c cs ih =>
    have hc : c ≠ 'Σ' := fun h => hsigma (h ▸ List.mem_cons_self)
    have hc' : c ≠ 'İ' := fun h => hdotted (h ▸ List.mem_cons_self)
    have hrest := ih (c :: before) (fun h => hsigma (List.mem_cons_of_mem c h))
      (fun h => hdotted (List.mem_cons_of_mem c h))
    unfold lowerFrom
    rw [if_neg hc, if_neg hc', hrest]
    rfl

theorem lowerChars_eq_map {cs : List Char} (hsigma : 'Σ' ∉ cs) (hdotted : 'İ' ∉ cs) :
    lowerChars cs = cs.map lowerChar :=
  lowerFrom_eq_map [] hsigma hdotted

end RecordFilter
