import RecordFilter.Description
import RecordFilter.Proofs.Timestamp.Forms

/-!
# The instants of timestamps

A timestamp stands for an instant, which is counted here in milliseconds from the
beginning of the year 0 and, so that a leap second has a place of its own, with 61
seconds in every minute.  Normalizing a text keeps this instant and nothing else.
-/

namespace RecordFilter

namespace Timestamp

/-! ## Instants -/

/-- The milliseconds of a day that has 61 seconds in every minute. -/
def millisecondsPerDay : Int := 1440 * 61000

namespace LocalTime

/-- The minutes on the clock, from the beginning of the year 0. -/
def localMinutes (l : LocalTime) : Int := l.date.dayCount * 1440 + l.hour * 60 + l.minute

/-- The thousandths of the fraction; what is below them is dropped. -/
def millisecond (l : LocalTime) : Nat := ofDigits l.fraction * 1000 / pow10 l.fraction.length

/-- The instant in milliseconds, with 61 seconds in every minute of UTC. -/
def instant (l : LocalTime) : Int :=
  (l.localMinutes - l.offset) * 61000 + l.second * 1000 + l.millisecond

end LocalTime

/-- The instant that a text stands for. -/
inductive Denotes (text : String) : Int → Prop
  | timestamp {l : LocalTime} : Rfc3339 text l → l.Valid → Denotes text l.instant
  | date {d : Date} : BareDate text d → d.exists? = true → -262143 ≤ d.year → d.year ≤ 262142 →
    Denotes text (d.dayCount * millisecondsPerDay)

/-! ## The fields of a moment -/

/-- A moment whose second is one of its day, and whose fraction runs on only at the end of a
minute. -/
structure Sound (t : Timestamp) : Prop where
  second_lt : t.second < 86400
  nanosecond_lt : t.nanosecond < 1000000000 ∨ t.second % 60 = 59 ∧ t.nanosecond < 2000000000

def date (t : Timestamp) : Date := .ofNumber t.day

def hour (t : Timestamp) : Nat := t.second / 3600

def minute (t : Timestamp) : Nat := t.second / 60 % 60

/-- The second of the minute; the last one of 61 is a leap second. -/
def secondOfMinute (t : Timestamp) : Nat := t.second % 60 + t.nanosecond / 1000000000

def millisecond (t : Timestamp) : Nat := t.nanosecond % 1000000000 / 1000000

/-- The instant of a moment. -/
def instant (t : Timestamp) : Int :=
  ((t.day + 60) * 1440 + (t.hour * 60 + t.minute)) * 61000
    + (t.secondOfMinute * 1000 + t.millisecond)

variable {t u : Timestamp}

theorem Sound.bounds (h : t.Sound) :
    t.hour < 24 ∧ t.minute < 60 ∧ t.secondOfMinute ≤ 60 ∧ t.millisecond < 1000 := by
  obtain ⟨h1, h2⟩ := h
  simp only [hour, minute, secondOfMinute, millisecond]
  omega

/-! ## Reading -/

theorem pow10_sub_mul {k n : Nat} (h : k ≤ n) : pow10 (n - k) * pow10 k = pow10 n := by
  rw [← pow10_add, Nat.sub_add_cancel h]

/-- The thousandths of a fraction are those of its first nine digits. -/
theorem nanosecond_div (l : LocalTime) (h : ∀ c ∈ l.fraction, isDigit c = true) :
    l.nanosecond / 1000000 = l.millisecond := by
  rw [LocalTime.nanosecond, LocalTime.millisecond]
  rcases Nat.lt_or_ge 9 l.fraction.length with hlen | hlen
  · obtain ⟨r, hr⟩ : ∃ r, r = (l.fraction.drop 9).length := ⟨_, rfl⟩
    have hlow : ofDigits (l.fraction.drop 9) < pow10 r := by
      rw [hr]
      exact ofDigits_lt fun c hc => h c (List.mem_of_mem_drop hc)
    have hlength : pow10 l.fraction.length = pow10 r * 1000000 * 1000 := by
      rw [Nat.mul_assoc]
      show _ = pow10 r * pow10 9
      rw [← pow10_add, hr, List.length_drop, Nat.sub_add_cancel hlen.le]
    have htake : (l.fraction.take 9).length = 9 := List.length_take_of_le hlen.le
    rw [htake, hlength, Nat.mul_div_mul_right _ _ (by decide), ← Nat.div_div_eq_div_mul]
    nth_rewrite 2 [← List.take_append_drop 9 l.fraction]
    rw [ofDigits_append, ← hr, Nat.mul_add_div (pow10_pos r), Nat.div_eq_of_lt hlow]
    simp [pow10]
  · obtain ⟨k, hk⟩ : ∃ k, k = 9 - l.fraction.length := ⟨_, rfl⟩
    have hlength : pow10 l.fraction.length * pow10 k = 1000000 * 1000 := by
      rw [hk, ← pow10_add, Nat.add_sub_cancel' hlen]
      rfl
    rw [List.take_of_length_le hlen, ← hk]
    calc ofDigits l.fraction * pow10 k / 1000000
        = ofDigits l.fraction * pow10 k * 1000 / (1000000 * 1000) :=
          (Nat.mul_div_mul_right _ _ (by decide)).symm
      _ = ofDigits l.fraction * 1000 * pow10 k / (pow10 l.fraction.length * pow10 k) := by
          rw [hlength, Nat.mul_right_comm]
      _ = ofDigits l.fraction * 1000 / pow10 l.fraction.length :=
          Nat.mul_div_mul_right _ _ (pow10_pos k)

theorem nanosecond_lt (l : LocalTime) (h : ∀ c ∈ l.fraction, isDigit c = true) :
    l.nanosecond < 1000000000 := by
  have hlt : ofDigits (l.fraction.take 9) < pow10 (l.fraction.take 9).length :=
    ofDigits_lt fun c hc => h c (List.mem_of_mem_take hc)
  have hle : (l.fraction.take 9).length ≤ 9 := List.length_take_le _ _
  calc l.nanosecond
      < pow10 (l.fraction.take 9).length * pow10 (9 - (l.fraction.take 9).length) :=
        Nat.mul_lt_mul_of_pos_right hlt (pow10_pos _)
    _ = pow10 9 := by rw [Nat.mul_comm, pow10_sub_mul hle]

theorem sound_moment {l : LocalTime} (hv : l.Valid) (h : ∀ c ∈ l.fraction, isDigit c = true) :
    l.moment.Sound := by
  have hlt := nanosecond_lt l h
  have hs := hv.second
  constructor
  · simp only [LocalTime.moment, ofLocal]
    omega
  · simp only [LocalTime.moment, ofLocal]
    split <;> omega

theorem instant_moment {l : LocalTime} (hv : l.Valid) (h : ∀ c ∈ l.fraction, isDigit c = true) :
    l.moment.instant = l.instant := by
  have hlt := nanosecond_lt l h
  have hdate := Date.number_add_sixty hv.date
  have hs := hv.second
  simp only [instant, LocalTime.instant, LocalTime.localMinutes, ← nanosecond_div l h, ← hdate,
    hour, minute, secondOfMinute, millisecond, LocalTime.moment, ofLocal]
  split <;> omega

theorem sound_ofLocal (d : Date) : (ofLocal d 0 0 0).Sound := by
  constructor <;> simp only [ofLocal] <;> omega

theorem instant_ofLocal {d : Date} (h : d.exists? = true) :
    (ofLocal d 0 0 0).instant = d.dayCount * millisecondsPerDay := by
  have hdate := Date.number_add_sixty h
  simp only [instant, hour, minute, secondOfMinute, millisecond, ofLocal, millisecondsPerDay]
  omega

variable {text : String} {l : LocalTime} {d : Date} {x : Int}

theorem Numeral.not_colon {least most n : Nat} {cs : List Char} (h : Numeral least most cs n) :
    ':' ∉ cs := fun hc => absurd (h.digits _ hc) (by decide)

theorem Year.not_colon {cs : List Char} {year : Int} (h : Year cs year) : ':' ∉ cs := by
  cases h with
  | plain h => exact h.not_colon
  | ahead h => simpa using h.not_colon
  | behind h => simpa using h.not_colon

theorem BareDate.not_colon (h : BareDate text d) : ':' ∉ text.toList := by
  cases h with
  | mk hblanks hblanks' hblanks'' hyear hmonth hday htext =>
    have hblank {cs : List Char} (h : ∀ c ∈ cs, isWhiteSpace c = true) : ':' ∉ cs :=
      fun hc => absurd (h _ hc) (by decide)
    simp [htext, hblank hblanks, hblank hblanks', hblank hblanks'', hyear.not_colon,
      hmonth.not_colon, hday.not_colon]

/-- A text of one form is not of the other: only a timestamp has a colon. -/
theorem BareDate.not_rfc3339 (h : BareDate text d) (l : LocalTime) : ¬Rfc3339 text l := by
  have hcolon := h.not_colon
  rintro ⟨-, -, -, -, -, -, -, htext⟩
  simp [htext] at hcolon

theorem Rfc3339.isDigit_of_mem_fraction (h : Rfc3339 text l) :
    ∀ c ∈ l.fraction, isDigit c = true := by
  obtain ⟨-, -, -, -, -, hfraction, -, -⟩ := h
  cases hfraction with
  | none => nofun
  | digits _ hds => exact hds

theorem parse_of_rfc3339 (h : Rfc3339 text l) :
    parse text = if l.Valid then .ok l.moment else .error .outOfRange := by
  have hdate : ofDate? text = none := by
    rw [Option.eq_none_iff_forall_ne_some]
    intro t ht
    obtain ⟨d, hd⟩ := exists_bareDate ht
    exact hd.not_rfc3339 l h
  rw [parse, ofRfc3339_eq h, hdate]
  by_cases hv : l.Valid
  · rw [if_pos hv]
  · rw [if_neg hv]

theorem parse_of_bareDate (h : BareDate text d) :
    parse text = .ok t ↔ ofDate? text = some t := by
  rw [parse]
  cases hr : ofRfc3339 text with
  | error problem => cases ofDate? text <;> simp
  | ok t =>
    obtain ⟨l, hl⟩ := exists_rfc3339 hr
    exact absurd hl (h.not_rfc3339 l)

/-- Every text that stands for an instant is read as that instant. -/
theorem Denotes.exists_parse (h : Denotes text x) : ∃ t, parse text = .ok t ∧ t.instant = x := by
  cases h with
  | timestamp hl hv =>
    exact ⟨_, by rw [parse_of_rfc3339 hl, if_pos hv],
      instant_moment hv hl.isDigit_of_mem_fraction⟩
  | date h hd hmin hmax =>
    exact ⟨_, (parse_of_bareDate h).2 (by rw [ofDate?_eq h, if_pos ⟨hd, hmin, hmax⟩]),
      instant_ofLocal hd⟩

/-- Every text that is read stands for the instant that is read. -/
theorem denotes_of_parse (h : parse text = .ok t) : Denotes text t.instant ∧ t.Sound := by
  rw [parse] at h
  split at h
  · rename_i t' ht
    cases h
    obtain ⟨l, hl, hv, rfl⟩ := rfc3339_of_ofRfc3339 ht
    rw [instant_moment hv hl.isDigit_of_mem_fraction]
    exact ⟨.timestamp hl hv, sound_moment hv hl.isDigit_of_mem_fraction⟩
  · split at h
    · rename_i t' ht
      cases h
      obtain ⟨d, hd⟩ := exists_bareDate ht
      rw [ofDate?_eq hd] at ht
      split at ht
      · rename_i hchecks
        cases ht
        rw [instant_ofLocal hchecks.1]
        exact ⟨.date hd hchecks.1 hchecks.2.1 hchecks.2.2, sound_ofLocal d⟩
      · cases ht
    · cases h

/-- A text stands for one instant. -/
theorem Denotes.unique {y : Int} (hx : Denotes text x) (hy : Denotes text y) : x = y := by
  obtain ⟨t, ht, rfl⟩ := hx.exists_parse
  obtain ⟨u, hu, rfl⟩ := hy.exists_parse
  rw [ht] at hu
  rw [Except.ok.inj hu]

end Timestamp

end RecordFilter
