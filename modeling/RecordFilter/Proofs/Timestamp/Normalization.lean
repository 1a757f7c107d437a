import RecordFilter.Description
import RecordFilter.Proofs.Value.Symmetry
import RecordFilter.Proofs.Timestamp.Texts

/-!
# Normalized dates

Normalizing keeps the instant of a timestamp in milliseconds, and nothing else of it:
two timestamps are normalized alike if and only if they have the same instant.  Where
the year of the instant in UTC has four digits the result has the form
`YYYY-MM-DDTHH:MM:SS.sssZ`, is normalized to itself, and is ordered as the instant.  A
time zone can carry a timestamp out of these years, and a bare date may lie outside
them; the result is then longer, is rejected, and comes before all others.
-/

namespace RecordFilter

open Timestamp

variable {a b A B : String} {l m : LocalTime} {x y : Int}

/-! ## Results -/

theorem normalizeDate_eq_ok_iff : normalizeDate a = .ok A ↔ ∃ t, parse a = .ok t ∧ t.text = A := by
  rw [normalizeDate]
  cases parse a with
  | ok t => simp
  | error problem => simp

theorem exists_moment (h : normalizeDate a = .ok A) :
    ∃ t : Timestamp, t.Sound ∧ Denotes a t.instant ∧ A = t.text := by
  obtain ⟨t, ht, rfl⟩ := normalizeDate_eq_ok_iff.1 h
  obtain ⟨hdenotes, hsound⟩ := denotes_of_parse ht
  exact ⟨t, hsound, hdenotes, rfl⟩

/-- The texts that are normalized are those that stand for an instant. -/
theorem normalizes_iff : (∃ A, normalizeDate a = .ok A) ↔ ∃ x, Denotes a x := by
  constructor
  · rintro ⟨A, h⟩
    obtain ⟨t, -, hdenotes, -⟩ := exists_moment h
    exact ⟨_, hdenotes⟩
  · rintro ⟨x, h⟩
    obtain ⟨t, ht, -⟩ := h.exists_parse
    exact ⟨_, normalizeDate_eq_ok_iff.2 ⟨t, ht, rfl⟩⟩

theorem eq_iff_of_denotes (ha : normalizeDate a = .ok A) (hb : normalizeDate b = .ok B)
    (hx : Denotes a x) (hy : Denotes b y) : A = B ↔ x = y := by
  obtain ⟨t, hsound, hdenotes, rfl⟩ := exists_moment ha
  obtain ⟨u, hsound', hdenotes', rfl⟩ := exists_moment hb
  rw [text_eq_iff hsound hsound', hx.unique hdenotes, hy.unique hdenotes']

/-- Texts that stand for the same instant are normalized alike. -/
theorem normalizeDate_congr (hx : Denotes a x) (hy : Denotes b x) :
    normalizeDate a = normalizeDate b := by
  obtain ⟨A, ha⟩ := normalizes_iff.2 ⟨x, hx⟩
  obtain ⟨B, hb⟩ := normalizes_iff.2 ⟨x, hy⟩
  rw [ha, hb, (eq_iff_of_denotes ha hb hx hy).2 rfl]

/-! ## Instants -/

theorem rfc3339_normalizes_iff (h : Rfc3339 a l) : (∃ A, normalizeDate a = .ok A) ↔ l.Valid := by
  simp only [normalizeDate_eq_ok_iff, parse_of_rfc3339 h]
  by_cases hv : l.Valid <;> simp [hv]

theorem denotes_of_rfc3339 (h : normalizeDate a = .ok A) (hl : Rfc3339 a l) :
    Denotes a l.instant :=
  .timestamp hl ((rfc3339_normalizes_iff hl).1 ⟨A, h⟩)

/-- A bare date as a timestamp: its midnight in UTC. -/
def midnight (d : Date) : LocalTime := ⟨d, 0, 0, 0, [], 0⟩

theorem instant_midnight (d : Date) : (midnight d).instant = d.dayCount * millisecondsPerDay := by
  have hms : (midnight d).millisecond = 0 := by simp [LocalTime.millisecond, midnight, ofDigits]
  rw [LocalTime.instant, hms]
  simp only [LocalTime.localMinutes, midnight, millisecondsPerDay]
  ring

theorem bareDate_of_fullDate {d : Date} (h : FullDate a.toList d) : BareDate a d := by
  generalize hcs : a.toList = cs at h
  cases h with
  | mk hyear hmonth hday =>
    have hone {k n : Nat} {ds : List Char} (hk : 1 ≤ k) (h : Numeral k k ds n) : Numeral 1 k ds n :=
      ⟨Nat.le_trans hk h.least_le, h.le_most, h.digits, h.value⟩
    have hblanks : ∀ c ∈ ([] : List Char), isWhiteSpace c = true := nofun
    exact .mk hblanks hblanks hblanks (.plain (hone (by decide) hyear)) (hone (by decide) hmonth)
      (hone (by decide) hday) hcs

theorem rfc3339_of_fullDate {d : Date} (h : FullDate a.toList d) :
    Rfc3339 (a ++ "T00:00:00Z") (midnight d) := by
  have hzero : Numeral 2 2 ['0', '0'] 0 := by decide
  refine .mk h (by decide : 'T' ∈ _) hzero hzero hzero .none (.utc (.inl rfl)) ?_
  rw [String.toList_append]
  rfl

theorem valid_midnight_iff (d : Date) : (midnight d).Valid ↔ d.exists? = true := by
  simp [LocalTime.valid_iff, midnight]

theorem year_of_fullDate {cs : List Char} {d : Date} (h : FullDate cs d) :
    0 ≤ d.year ∧ d.year ≤ 9999 := by
  cases h with
  | mk hyear =>
    have hlt := ofDigits_lt hyear.digits
    have hle := pow10_le_pow10 hyear.le_most
    have hfour : pow10 4 = 10000 := rfl
    rw [hyear.value] at hlt
    simp only
    omega

/-- A date `YYYY-MM-DD` is normalized as its midnight in UTC. -/
theorem normalizeDate_midnight {d : Date} (h : FullDate a.toList d) :
    normalizeDate a = .ok A ↔ normalizeDate (a ++ "T00:00:00Z") = .ok A := by
  have hbare := bareDate_of_fullDate h
  have hfull := rfc3339_of_fullDate h
  have hyear := year_of_fullDate h
  by_cases hd : d.exists? = true
  · have hdate := Denotes.date hbare hd (by omega) (by omega)
    have hmidnight := Denotes.timestamp hfull ((valid_midnight_iff d).2 hd)
    rw [instant_midnight] at hmidnight
    rw [normalizeDate_congr hdate hmidnight]
  · constructor <;> intro hA
    · obtain ⟨t, ht, -⟩ := normalizeDate_eq_ok_iff.1 hA
      rw [parse_of_bareDate hbare, ofDate?_eq hbare, if_neg fun hchecks => hd hchecks.1] at ht
      cases ht
    · have hvalid := (rfc3339_normalizes_iff hfull).1 ⟨A, hA⟩
      exact absurd ((valid_midnight_iff d).1 hvalid) hd

/-- Two texts are normalized alike if and only if they stand for the same instant.  So a timestamp
that is moved to another time zone, with its local date and time, keeps its result, and a date
`YYYY-MM-DD` has that of its midnight in UTC. -/
theorem normalizeDate_eq_iff (ha : normalizeDate a = .ok A) (hb : normalizeDate b = .ok B) :
    (∃ x y, Denotes a x ∧ Denotes b y ∧ (A = B ↔ x = y)) ∧
    (∀ l m, Rfc3339 a l → Rfc3339 b m → (A = B ↔ l.instant = m.instant)) ∧
    (∀ c l m, Rfc3339 a l → Rfc3339 c m → m.Valid →
      m.localMinutes - l.localMinutes = m.offset - l.offset → m.second = l.second →
      m.fraction = l.fraction → normalizeDate c = .ok A) ∧
    ∀ c d, FullDate c.toList d →
      ∀ C, normalizeDate c = .ok C ↔ normalizeDate (c ++ "T00:00:00Z") = .ok C := by
  refine ⟨?_, ?_, ?_, fun c d hc C => normalizeDate_midnight hc⟩
  · obtain ⟨x, hx⟩ := normalizes_iff.1 ⟨A, ha⟩
    obtain ⟨y, hy⟩ := normalizes_iff.1 ⟨B, hb⟩
    exact ⟨x, y, hx, hy, eq_iff_of_denotes ha hb hx hy⟩
  · intro l m hl hm
    exact eq_iff_of_denotes ha hb (denotes_of_rfc3339 ha hl) (denotes_of_rfc3339 hb hm)
  · intro c l m hl hm hvalid hminutes hsecond hfraction
    have hinstant : m.instant = l.instant := by
      rw [LocalTime.instant, LocalTime.instant, LocalTime.millisecond, LocalTime.millisecond,
        hsecond, hfraction]
      omega
    rw [← ha]
    exact normalizeDate_congr (hinstant ▸ .timestamp hm hvalid) (denotes_of_rfc3339 ha hl)

/-- The evening of a leap day, two hours ahead of UTC. -/
theorem rfc3339_leapEvening :
    Rfc3339 "2024-02-29T23:30:00.1239+02:00"
      ⟨⟨2024, 2, 29⟩, 23, 30, 0, ['1', '2', '3', '9'], 2 * 60 + 0⟩ :=
  .mk (.mk (by decide : Numeral 4 4 ['2', '0', '2', '4'] 2024)
      (by decide : Numeral 2 2 ['0', '2'] 2) (by decide : Numeral 2 2 ['2', '9'] 29))
    (by decide : 'T' ∈ _) (by decide : Numeral 2 2 ['2', '3'] 23)
    (by decide : Numeral 2 2 ['3', '0'] 30) (by decide : Numeral 2 2 ['0', '0'] 0)
    (.digits (by decide) (List.all_eq_true.1 (by decide))) (.ahead (by decide : Numeral 2 2 ['0', '2'] 2)
      (by decide : Numeral 2 2 ['0', '0'] 0) (by decide)) rfl

/-- The same instant half an hour further ahead, at the midnight before the first of March. -/
theorem rfc3339_marchMidnight :
    Rfc3339 "2024-03-01 00:00:00.1239+02:30"
      ⟨⟨2024, 3, 1⟩, 0, 0, 0, ['1', '2', '3', '9'], 2 * 60 + 30⟩ :=
  .mk (.mk (by decide : Numeral 4 4 ['2', '0', '2', '4'] 2024)
      (by decide : Numeral 2 2 ['0', '3'] 3) (by decide : Numeral 2 2 ['0', '1'] 1))
    (by decide : ' ' ∈ _) (by decide : Numeral 2 2 ['0', '0'] 0)
    (by decide : Numeral 2 2 ['0', '0'] 0) (by decide : Numeral 2 2 ['0', '0'] 0)
    (.digits (by decide) (List.all_eq_true.1 (by decide))) (.ahead (by decide : Numeral 2 2 ['0', '2'] 2)
      (by decide : Numeral 2 2 ['3', '0'] 30) (by decide)) rfl

theorem normalizeDate_eq_iff_zones :
    normalizeDate "2024-02-29T23:30:00.1239+02:00" = .ok "2024-02-29T21:30:00.123Z" ∧
      normalizeDate "2024-03-01 00:00:00.1239+02:30" = .ok "2024-02-29T21:30:00.123Z" := by
  have ha : normalizeDate "2024-02-29T23:30:00.1239+02:00" = .ok "2024-02-29T21:30:00.123Z" := by
    rfl
  obtain ⟨-, -, hrewritten, -⟩ := normalizeDate_eq_iff ha ha
  refine ⟨ha, hrewritten _ _ _ rfc3339_leapEvening rfc3339_marchMidnight
    ((LocalTime.valid_iff _).2 (by decide)) ?_ rfl rfl⟩
  rw [LocalTime.localMinutes, LocalTime.localMinutes, ← Date.number_add_sixty (by decide),
    ← Date.number_add_sixty (by decide)]
  rfl

/-! ## Order -/

theorem compareOfLessAndEq_of_compares {o : Ordering} (h : o.Compares A.toList B.toList) :
    compareOfLessAndEq A B = o := by
  have hstring : o.Compares A B := by
    cases o with
    | lt => exact String.lt_iff_toList_lt.2 h
    | eq => exact String.toList_inj.1 h
    | gt => exact String.lt_iff_toList_lt.2 h
  rw [← LinearOrder.compare_eq_compareOfLessAndEq, ← cmp_eq_compare]
  exact hstring.cmp_eq

/-- Where the year in UTC has four digits the result has the form of a timestamp with
milliseconds and is normalized to itself; else it is longer and is rejected.  A result of the first
kind is ordered against another one as the instants are, unless the other one's year is too late. -/
theorem normalizeDate_sorted (ha : normalizeDate a = .ok A) :
    ∃ x, Denotes a x ∧
      (FourDigits x → Shaped A ∧ normalizeDate A = .ok A) ∧
      (¬FourDigits x → 24 < A.length ∧ ∀ B, normalizeDate A ≠ .ok B) ∧
      ∀ b y B, Denotes b y → normalizeDate b = .ok B → FourDigits x →
        (Value.order? (.string A) (.string B) = some (compare x y) ↔ y < beginning 10000) := by
  obtain ⟨t, ht, hdenotes, rfl⟩ := exists_moment ha
  refine ⟨t.instant, hdenotes, fun hx => ⟨shaped_text ht hx, ?_⟩,
    fun hx => ⟨lt_length_text ht hx, ?_⟩, ?_⟩
  · have hagain := denotes_text ht hx
    obtain ⟨B, hB⟩ := normalizes_iff.2 ⟨_, hagain⟩
    rw [hB, (eq_iff_of_denotes ha hB hdenotes hagain).2 rfl]
  · intro B hB
    obtain ⟨u, -, hagain, -⟩ := exists_moment hB
    exact not_denotes_text ht hx _ hagain
  · intro b y B hb hB hx
    obtain ⟨u, hu, hdenotes', rfl⟩ := exists_moment hB
    obtain rfl := hb.unique hdenotes'
    have horder : Value.order? (.string t.text) (.string u.text) =
        some (compareOfLessAndEq t.text u.text) := rfl
    rw [horder, Option.some_inj]
    by_cases hy : FourDigits u.instant
    · have hcompares := compares_text ht hu hx hy (cmp_compares _ _)
      rw [compareOfLessAndEq_of_compares hcompares, cmp_eq_compare]
      exact iff_of_true rfl hy.2
    · -- the sign of the year puts the text first, whichever side the year lies on
      rw [compareOfLessAndEq_of_compares (o := .gt) (text_lt_text ht hu hx hy), eq_comm,
        compare_gt_iff_gt]
      simp only [FourDigits] at hx hy
      omega

/-- An hour behind UTC the last second of the year 9999 lies in the year after it. -/
theorem normalizeDate_sorted_lastSecond :
    normalizeDate "9999-12-31T23:59:59-01:00" = .ok "+10000-01-01T00:59:59.000Z" ∧
      ∃ x, Denotes "9999-12-31T23:59:59-01:00" x ∧ ¬FourDigits x := by
  have h : normalizeDate "9999-12-31T23:59:59-01:00" = .ok "+10000-01-01T00:59:59.000Z" := by rfl
  obtain ⟨x, hx, hfour, -⟩ := normalizeDate_sorted h
  refine ⟨h, x, hx, fun hf => ?_⟩
  have hagain := (hfour hf).2
  cases hagain

end RecordFilter
