import RecordFilter.Proofs.Parsing
import RecordFilter.Proofs.Token.Lookahead

/-!
# What a reader has seen

A reader decides by the tokens that it has taken and the one in front of it.  So it
does the same with every stream that begins with the tokens it took and goes on with
the token it stands at, and a reader with more levels to open does no worse.  What it
took is a phrase where it succeeds, and the beginning of a phrase where it fails.

    expression.run s = .ok p rest → Delivers s ts rest ∧ Phrase .expression ts p
    expression.run s = .error e rest → Delivers s ts rest ∧ Phrase .expression (ts ++ us) p
      and (phrase b .expression).run s' ends alike where nestingLimit ≤ b    (tracks_expression)

An error that says `tooDeep` is about a limit, not about the tokens, and left out.
-/

namespace RecordFilter

/-! ## Fronts -/

/-- Both streams go on with the same token, or both are at an end, or at an error. -/
inductive TokenStream.SameFront : TokenStream → TokenStream → Prop
  | eof (o o' : Nat) : SameFront (.eof o) (.eof o')
  | failed (e e' : LexError) : SameFront (.failed e) (.failed e')
  | token (t : Token) (o o' : Nat) (rest rest' : TokenStream) :
      SameFront (.token t o rest) (.token t o' rest')

open TokenStream (SameFront)

theorem TokenStream.SameFront.ne_token {s s' : TokenStream} (h : SameFront s s') {t : Token}
    (hne : ∀ o rest, s ≠ .token t o rest) : ∀ o rest, s' ≠ .token t o rest := by
  rintro o rest rfl
  cases h
  exact hne _ _ rfl

theorem TokenStream.SameFront.ne_failed {s s' : TokenStream} (h : SameFront s s')
    (hne : ∀ e, s ≠ .failed e) : ∀ e, s' ≠ .failed e := by
  rintro e rfl
  cases h
  exact hne _ rfl

/-- Streams that deliver the same tokens and then have the same front have the same front. -/
theorem Delivers.sameFront {s s' rest rest' : TokenStream} {ts : List Token}
    (h : Delivers s ts rest) (h' : Delivers s' ts rest') (hf : SameFront rest rest') :
    SameFront s s' := by
  cases h with
  | nil =>
    cases h'
    exact hf
  | cons =>
    cases h'
    exact .token _ _ _ _ _

/-! ## Tracking -/

def ParseError.IsTooDeep : ParseError → Prop
  | tooDeep _ _ => True
  | _ => False

variable {α β : Type}

/-- What a reader made of `s` tells of the tokens that it took: they are good, or they begin
something good, and `read'` takes the same tokens wherever they stand before the same front. -/
def Outcome.Tracked (good : List Token → α → Prop) (read' : TokenStream → Outcome α)
    (s : TokenStream) : Outcome α → Prop
  | ok a rest => ∃ ts, Delivers s ts rest ∧ good ts a ∧
      ∀ s' rest', Delivers s' ts rest' → SameFront rest rest' → read' s' = .ok a rest'
  | error e rest => e.IsTooDeep ∨ ∃ ts, Delivers s ts rest ∧ (∃ us a, good (ts ++ us) a) ∧
      ∀ s' rest', Delivers s' ts rest' → SameFront rest rest' → ∃ e', read' s' = .error e' rest'

def TracksAt (good : List Token → α → Prop) (read read' : TokenStream → Outcome α)
    (s : TokenStream) : Prop := (read s).Tracked good read' s

/-- `read'` follows `read` on all streams that begin alike. -/
def Tracks (good : List Token → α → Prop) (read read' : TokenStream → Outcome α) : Prop :=
  ∀ s, TracksAt good read read' s

variable {good : List Token → α → Prop} {read read' other other' : TokenStream → Outcome α}
  {s : TokenStream}

theorem TracksAt.mono {better : List Token → α → Prop} (h : TracksAt good read read' s)
    (hgood : ∀ ts a, good ts a → better ts a) : TracksAt better read read' s := by
  unfold TracksAt at h ⊢
  cases hs : read s with
  | ok a rest =>
    rw [hs] at h
    obtain ⟨ts, hd, ha, hread⟩ := h
    exact ⟨ts, hd, hgood ts a ha, hread⟩
  | error e rest =>
    rw [hs] at h
    rcases h with hdeep | ⟨ts, hd, ⟨us, a, ha⟩, hread⟩
    · exact .inl hdeep
    · exact .inr ⟨ts, hd, ⟨us, a, hgood _ a ha⟩, hread⟩

/-- Other readers that do the same with this front track each other alike. -/
theorem TracksAt.of_eq (h : TracksAt good other other' s) (hs : read s = other s)
    (hs' : ∀ s', SameFront s s' → read' s' = other' s') : TracksAt good read read' s := by
  unfold TracksAt at h ⊢
  rw [hs]
  cases ho : other s with
  | ok a rest =>
    rw [ho] at h
    obtain ⟨ts, hd, ha, hread⟩ := h
    refine ⟨ts, hd, ha, fun s' rest' hd' hf => ?_⟩
    rw [hs' s' (hd.sameFront hd' hf)]
    exact hread s' rest' hd' hf
  | error e rest =>
    rw [ho] at h
    rcases h with hdeep | ⟨ts, hd, hbegins, hread⟩
    · exact .inl hdeep
    · refine .inr ⟨ts, hd, hbegins, fun s' rest' hd' hf => ?_⟩
      rw [hs' s' (hd.sameFront hd' hf)]
      exact hread s' rest' hd' hf

/-- A reader that takes nothing has read nothing. -/
theorem tracksAt_stays {a : α} (ha : good [] a) (hs : read s = .ok a s)
    (hs' : ∀ s', SameFront s s' → read' s' = .ok a s') : TracksAt good read read' s := by
  unfold TracksAt
  rw [hs]
  refine ⟨[], .nil s, ha, fun s' rest' hd' hf => ?_⟩
  cases hd'
  exact hs' s' hf

/-- A reader that fails at once fails at that front. -/
theorem tracksAt_fails {e : ParseError} (hbegins : ∃ us a, good us a) (hs : read s = .error e s)
    (hs' : ∀ s', SameFront s s' → ∃ e', read' s' = .error e' s') :
    TracksAt good read read' s := by
  unfold TracksAt
  rw [hs]
  refine .inr ⟨[], .nil s, hbegins, fun s' rest' hd' hf => ?_⟩
  cases hd'
  exact hs' s' hf

theorem failAt_error (error : Token → Nat → ParseError) (s : TokenStream) :
    ∃ e, failAt (α := α) error s = .error e s := by
  cases s with
  | eof offset => exact ⟨_, rfl⟩
  | failed e => exact ⟨_, rfl⟩
  | token t offset rest => exact ⟨_, rfl⟩

theorem tracksAt_failAt {error : Token → Nat → ParseError} (hbegins : ∃ us a, good us a)
    (hs : read s = failAt error s) (hs' : ∀ s', SameFront s s' → read' s' = failAt error s') :
    TracksAt good read read' s := by
  obtain ⟨e, he⟩ := failAt_error (α := α) error s
  refine tracksAt_fails hbegins (hs.trans he) fun s' hf => ?_
  obtain ⟨e', he'⟩ := failAt_error (α := α) error s'
  exact ⟨e', (hs' s' hf).trans he'⟩

/-- A reader that takes a token and goes on. -/
theorem TracksAt.cons {t : Token} {next next' : TokenStream → Outcome α} {offset : Nat}
    {rest : TokenStream} (h : TracksAt (fun ts a => good (t :: ts) a) next next' rest)
    (hs : read (.token t offset rest) = next rest)
    (hs' : ∀ o' r', read' (.token t o' r') = next' r') :
    TracksAt good read read' (.token t offset rest) := by
  unfold TracksAt at h ⊢
  rw [hs]
  cases hn : next rest with
  | ok a last =>
    rw [hn] at h
    obtain ⟨ts, hd, ha, hread⟩ := h
    refine ⟨t :: ts, .cons hd, ha, fun s' rest' hd' hf => ?_⟩
    cases hd' with
    | cons hd' =>
      rw [hs']
      exact hread _ rest' hd' hf
  | error e last =>
    rw [hn] at h
    rcases h with hdeep | ⟨ts, hd, hbegins, hread⟩
    · exact .inl hdeep
    · refine .inr ⟨t :: ts, .cons hd, hbegins, fun s' rest' hd' hf => ?_⟩
      cases hd' with
      | cons hd' =>
        rw [hs']
        exact hread _ rest' hd' hf

/-- A reader that goes on behind another one.  What the first one has begun can be completed, and
then what the second one does: so a beginning of the first is one of both. -/
theorem TracksAt.bind {first : List Token → α → Prop} {good : List Token → β → Prop}
    {next next' : α → TokenStream → Outcome β} (h : TracksAt first read read' s)
    (hfinish : ∀ ts a, first ts a → ∃ us b, good (ts ++ us) b)
    (hnext : ∀ ts a rest, read s = .ok a rest → first ts a →
      TracksAt (fun us b => good (ts ++ us) b) (next a) (next' a) rest) :
    TracksAt good (fun s => (read s).bind next) (fun s => (read' s).bind next') s := by
  unfold TracksAt at h
  show ((read s).bind next).Tracked good _ s
  cases hs : read s with
  | error e rest =>
    rw [hs] at h
    rcases h with hdeep | ⟨ts, hd, ⟨us, a, ha⟩, hread⟩
    · exact .inl hdeep
    · obtain ⟨vs, b, hb⟩ := hfinish _ a ha
      rw [List.append_assoc] at hb
      refine .inr ⟨ts, hd, ⟨us ++ vs, b, hb⟩, fun s' rest' hd' hf => ?_⟩
      obtain ⟨e', he'⟩ := hread s' rest' hd' hf
      refine ⟨e', ?_⟩
      show (read' s').bind next' = _
      rw [he']
      rfl
  | ok a mid =>
    rw [hs] at h
    obtain ⟨ts, hd, ha, hread⟩ := h
    have hrest := hnext ts a mid hs ha
    unfold TracksAt at hrest
    show (next a mid).Tracked good _ s
    cases hm : next a mid with
    | ok b rest =>
      rw [hm] at hrest
      obtain ⟨us, hdu, hb, hreadu⟩ := hrest
      refine ⟨ts ++ us, hd.append hdu, hb, fun s' rest' hd' hf => ?_⟩
      obtain ⟨mid', hd₁, hd₂⟩ := hd'.split
      show (read' s').bind next' = _
      rw [hread s' mid' hd₁ (hdu.sameFront hd₂ hf)]
      exact hreadu mid' rest' hd₂ hf
    | error e rest =>
      rw [hm] at hrest
      rcases hrest with hdeep | ⟨us, hdu, ⟨vs, b, hb⟩, hreadu⟩
      · exact .inl hdeep
      · rw [← List.append_assoc] at hb
        refine .inr ⟨ts ++ us, hd.append hdu, ⟨vs, b, hb⟩, fun s' rest' hd' hf => ?_⟩
        obtain ⟨mid', hd₁, hd₂⟩ := hd'.split
        obtain ⟨e', he'⟩ := hreadu mid' rest' hd₂ hf
        refine ⟨e', ?_⟩
        show (read' s').bind next' = _
        rw [hread s' mid' hd₁ (hdu.sameFront hd₂ hf)]
        exact he'

/-- A reader whose result is made into another one. -/
theorem TracksAt.map {first : List Token → α → Prop} {good : List Token → β → Prop} {f : α → β}
    (h : TracksAt first read read' s) (hgood : ∀ ts a, first ts a → good ts (f a)) :
    TracksAt good (fun s => (read s).bind fun a => .ok (f a))
      (fun s => (read' s).bind fun a => .ok (f a)) s := by
  have hnil : ∀ ts a, first ts a → good (ts ++ []) (f a) := by
    intro ts a ha
    rw [List.append_nil]
    exact hgood ts a ha
  refine h.bind (fun ts a ha => ⟨[], f a, hnil ts a ha⟩) ?_
  intro ts a rest _ ha
  exact tracksAt_stays (hnil ts a ha) rfl fun _ _ => rfl

theorem expect_of_ne {t : Token} (hne : ∀ o rest, s ≠ .token t o rest) :
    expect t s = failAt (.unexpected t) s := by
  unfold expect
  split
  · rename_i found o rest
    rw [if_neg]
    rintro rfl
    exact hne o rest rfl
  · rfl

theorem tracks_expect (t : Token) : Tracks (fun ts _ => ts = [t]) (expect t) (expect t) := by
  intro s
  by_cases h : ∃ o rest, s = .token t o rest
  · obtain ⟨o, rest, rfl⟩ := h
    exact (tracksAt_stays (a := ()) rfl rfl fun _ _ => rfl).cons (if_pos rfl) fun _ _ => if_pos rfl
  · have hne : ∀ o rest, s ≠ .token t o rest := fun o rest hs => h ⟨o, rest, hs⟩
    exact tracksAt_failAt ⟨[t], (), rfl⟩ (expect_of_ne hne) fun s' hf => expect_of_ne (hf.ne_token hne)

namespace Predicate

/-! ## Conditions -/

/-- An operand of one token. -/
def OneOperand (ts : List Token) (p : Predicate) : Prop := ∃ t, ts = [t] ∧ DerivesOperand t p

theorem oneOperand_null : OneOperand [.null] .null := ⟨.null, rfl, .null⟩

theorem operand_run_of_ne {s : TokenStream} (hne : ∀ t o rest, s ≠ .token t o rest) :
    operand.run s = failAt .expectedOperand s := by
  cases s with
  | eof offset => rfl
  | failed e => rfl
  | token t o rest => exact absurd rfl (hne t o rest)

theorem tracks_operand : Tracks OneOperand operand.run operand.run := by
  intro s
  have hbegins : ∃ us p, OneOperand us p := ⟨_, _, oneOperand_null⟩
  by_cases h : ∃ t o rest, s = .token t o rest
  · obtain ⟨t, o, rest, rfl⟩ := h
    cases ht : ofToken? t with
    | some p =>
      have hgood : OneOperand [t] p := ⟨t, rfl, ofToken?_eq_some_iff.1 ht⟩
      exact (tracksAt_stays hgood rfl fun _ _ => rfl).cons (operand_run_of_some ht _ _)
        fun _ _ => operand_run_of_some ht _ _
    | none =>
      refine tracksAt_failAt hbegins (operand_run_of_none ht _ _) fun s' hf => ?_
      cases hf
      exact operand_run_of_none ht _ _
  · have hne : ∀ t o rest, s ≠ .token t o rest := fun t o rest hs => h ⟨t, o, rest, hs⟩
    exact tracksAt_failAt hbegins (operand_run_of_ne hne)
      fun s' hf => operand_run_of_ne fun t => hf.ne_token (hne t)

/-- What ends a list behind the items `items`: a parenthesis, or a comma and more items first. -/
def ListEnd (items : List Predicate) (ts : List Token) (p : Predicate) : Prop :=
  (p = .list items ∧ ts = [.rightParen]) ∨
  ∃ us ps, p = .list (items ++ ps) ∧ DerivesItems us ps ∧ ts = .comma :: us ++ [.rightParen]

theorem listEnd_rightParen (items : List Predicate) : ListEnd items [.rightParen] (.list items) :=
  .inl ⟨rfl, rfl⟩

/-- One operand more in front of what ends a list. -/
theorem ListEnd.more {items : List Predicate} {t : Token} {q p : Predicate} {ts : List Token}
    (ht : DerivesOperand t q) (h : ListEnd (items ++ [q]) ts p) :
    ListEnd items (.comma :: ([t] ++ ts)) p := by
  rcases h with ⟨rfl, rfl⟩ | ⟨us, ps, rfl, hps, rfl⟩
  · exact .inr ⟨[t], [q], rfl, .one ht, rfl⟩
  · exact .inr ⟨t :: .comma :: us, q :: ps, by simp, .more ht hps, rfl⟩

theorem tracks_listTail (items : List Predicate) :
    Tracks (ListEnd items) (listTail items) (listTail items) := by
  intro s
  induction hn : s.size using Nat.strong_induction_on generalizing items s with
  | _ n ih =>
    by_cases h : ∃ o rest, s = .token .comma o rest
    · obtain ⟨o, rest, rfl⟩ := h
      have hmore : TracksAt (fun ts p => ListEnd items (.comma :: ts) p)
          (fun s => (operand.run s).bind fun p => listTail (items ++ [p]))
          (fun s => (operand.run s).bind fun p => listTail (items ++ [p])) rest := by
        refine (tracks_operand rest).bind ?_ ?_
        · rintro ts q ⟨t, rfl, ht⟩
          exact ⟨[.rightParen], _, (listEnd_rightParen _).more ht⟩
        · rintro ts q rest' hq ⟨t, rfl, ht⟩
          have hlt : rest'.size < n := by
            have hconsumes := operand.consumes hq
            rw [← hn, TokenStream.size]
            omega
          exact (ih _ hlt (items ++ [q]) rest' rfl).mono fun us p hp => hp.more ht
      exact hmore.cons (listTail_more items o rest) (listTail_more items)
    · have hne : ∀ o rest, s ≠ .token .comma o rest := fun o rest hs => h ⟨o, rest, hs⟩
      have hend : TracksAt (ListEnd items)
          (fun s => (expect .rightParen s).bind fun _ => .ok (list items))
          (fun s => (expect .rightParen s).bind fun _ => .ok (list items)) s := by
        refine (tracks_expect .rightParen s).map ?_
        rintro ts _ rfl
        exact listEnd_rightParen items
      exact hend.of_eq (listTail_end items hne) fun s' hf => listTail_end items (hf.ne_token hne)

/-- What may stand behind `in`. -/
def Candidates (ts : List Token) (p : Predicate) : Prop :=
  OneOperand ts p ∨
  ∃ us ps, p = .list ps ∧ DerivesItems us ps ∧ ts = .leftParen :: us ++ [.rightParen]

/-- A list is an operand behind its parenthesis and what ends it. -/
theorem candidates_list {t : Token} {q p : Predicate} {ts : List Token} (ht : DerivesOperand t q)
    (h : ListEnd [q] ts p) : Candidates (.leftParen :: ([t] ++ ts)) p := by
  rcases h with ⟨rfl, rfl⟩ | ⟨us, ps, rfl, hps, rfl⟩
  · exact .inr ⟨[t], [q], rfl, .one ht, rfl⟩
  · exact .inr ⟨t :: .comma :: us, q :: ps, rfl, .more ht hps, rfl⟩

theorem listRun_of_ne {s : TokenStream} (hne : ∀ o rest, s ≠ .token .leftParen o rest) :
    listRun s = operand.run s := by
  unfold listRun
  split
  · exact absurd rfl (hne _ _)
  · rfl

theorem tracks_listRun : Tracks Candidates listRun listRun := by
  intro s
  by_cases h : ∃ o rest, s = .token .leftParen o rest
  · obtain ⟨o, rest, rfl⟩ := h
    have hlist : TracksAt (fun ts p => Candidates (.leftParen :: ts) p)
        (fun s => (operand.run s).bind fun p => listTail [p])
        (fun s => (operand.run s).bind fun p => listTail [p]) rest := by
      refine (tracks_operand rest).bind ?_ ?_
      · rintro ts q ⟨t, rfl, ht⟩
        exact ⟨[.rightParen], _, candidates_list ht (listEnd_rightParen [q])⟩
      · rintro ts q rest' - ⟨t, rfl, ht⟩
        exact (tracks_listTail [q] rest').mono fun us p hp => candidates_list ht hp
    exact hlist.cons (listRun_leftParen o rest) listRun_leftParen
  · have hne : ∀ o rest, s ≠ .token .leftParen o rest := fun o rest hs => h ⟨o, rest, hs⟩
    have hone := (tracks_operand s).mono fun ts p (hp : OneOperand ts p) => (.inl hp : Candidates ts p)
    exact hone.of_eq (listRun_of_ne hne) fun s' hf => listRun_of_ne (hf.ne_token hne)

theorem derivesCondition_membership {t : Token} {left p : Predicate} {ts : List Token}
    (ht : DerivesOperand t left) (h : Candidates ts p) :
    DerivesCondition ([t] ++ .isIn :: ts) (membership left p) := by
  rcases h with ⟨u, rfl, hu⟩ | ⟨us, ps, rfl, hps, rfl⟩
  · rw [membership_eq_of_derivesOperand hu]
    exact .inOperand ht hu
  · exact .inList ht hps

theorem tracks_conditionEnd {t : Token} {left : Predicate} (ht : DerivesOperand t left) :
    Tracks (fun us p => DerivesCondition ([t] ++ us) p) (conditionEnd left) (conditionEnd left) := by
  intro s
  have hbegins : ∃ us p, DerivesCondition ([t] ++ us) p :=
    ⟨[.comparison .equal, .null], _, .compare .equal ht .null⟩
  cases ht with
  | boolean b => exact tracksAt_stays (.boolean b) rfl fun _ _ => rfl
  | field | var | string | integer | float | null =>
    exact tracksAt_failAt hbegins rfl fun _ _ => rfl

theorem tracks_conditionTail {t : Token} {left : Predicate} (ht : DerivesOperand t left) :
    Tracks (fun us p => DerivesCondition ([t] ++ us) p) (conditionTail left) (conditionTail left) := by
  intro s
  by_cases hcomparison : ∃ op o rest, s = .token (.comparison op) o rest
  · obtain ⟨op, o, rest, rfl⟩ := hcomparison
    have hmore : TracksAt (fun us p => DerivesCondition ([t] ++ .comparison op :: us) p)
        (fun s => (operand.run s).bind fun right => .ok (compare op left right))
        (fun s => (operand.run s).bind fun right => .ok (compare op left right)) rest := by
      refine (tracks_operand rest).map ?_
      rintro us q ⟨u, rfl, hu⟩
      exact .compare op ht hu
    exact hmore.cons (conditionTail_comparison left op o rest) (conditionTail_comparison left op)
  by_cases hisIn : ∃ o rest, s = .token .isIn o rest
  · obtain ⟨o, rest, rfl⟩ := hisIn
    have hmore : TracksAt (fun us p => DerivesCondition ([t] ++ .isIn :: us) p)
        (fun s => (listRun s).bind fun right => .ok (membership left right))
        (fun s => (listRun s).bind fun right => .ok (membership left right)) rest :=
      (tracks_listRun rest).map fun us q hq => derivesCondition_membership ht hq
    exact hmore.cons (conditionTail_isIn left o rest) (conditionTail_isIn left)
  by_cases hfailed : ∃ e, s = .failed e
  · obtain ⟨e, rfl⟩ := hfailed
    refine tracksAt_fails ⟨[.comparison .equal, .null], _, .compare .equal ht .null⟩ rfl ?_
    intro s' hf
    cases hf
    exact ⟨_, rfl⟩
  · have hne : ∀ e, s ≠ .failed e := fun e hs => hfailed ⟨e, hs⟩
    have hne₁ : ∀ op o rest, s ≠ .token (.comparison op) o rest :=
      fun op o rest hs => hcomparison ⟨op, o, rest, hs⟩
    have hne₂ : ∀ o rest, s ≠ .token .isIn o rest := fun o rest hs => hisIn ⟨o, rest, hs⟩
    refine (tracks_conditionEnd ht s).of_eq (conditionTail_end left hne hne₁ hne₂) fun s' hf => ?_
    exact conditionTail_end left (hf.ne_failed hne) (fun op => hf.ne_token (hne₁ op))
      (hf.ne_token hne₂)

theorem tracks_conditionRun : Tracks DerivesCondition conditionRun conditionRun := by
  intro s
  have hbind : TracksAt DerivesCondition (fun s => (operand.run s).bind conditionTail)
      (fun s => (operand.run s).bind conditionTail) s := by
    refine (tracks_operand s).bind ?_ ?_
    · rintro ts p ⟨t, rfl, ht⟩
      exact ⟨[.comparison .equal, .null], _, .compare .equal ht .null⟩
    · rintro ts p rest - ⟨t, rfl, ht⟩
      exact tracks_conditionTail ht rest
  exact hbind.of_eq (conditionRun_eq s) fun s' _ => conditionRun_eq s'

/-! ## Connectives -/

section

variable {item item' : Reader Predicate} {op : JoinOp} {I C : List Token → Predicate → Prop}

/-- What is joined so far may stand by itself, and goes on with one item more. -/
theorem tracks_joinTail (hitem : Tracks I item.run item'.run)
    (hjoin : ∀ {ts us p q}, C ts p → I us q → C (ts ++ .join op :: us) (.join op p q))
    {us : List Token} {left : Predicate} (hleft : C us left) :
    Tracks (fun ts p => C (us ++ ts) p) (joinTail item op left) (joinTail item' op left) := by
  intro s
  induction hn : s.size using Nat.strong_induction_on generalizing us left s with
  | _ n ih =>
    have halone : C (us ++ []) left := by rwa [List.append_nil]
    by_cases h : ∃ o rest, s = .token (.join op) o rest
    · obtain ⟨o, rest, rfl⟩ := h
      have hmore : TracksAt (fun ts p => C (us ++ .join op :: ts) p)
          (fun s => (item.run s).bind fun right => joinTail item op (join op left right))
          (fun s => (item'.run s).bind fun right => joinTail item' op (join op left right)) rest := by
        refine (hitem rest).bind ?_ ?_
        · intro ts q hq
          refine ⟨[], .join op left q, ?_⟩
          rw [List.append_nil]
          exact hjoin hleft hq
        · intro ts q rest' hr hq
          have hlt : rest'.size < n := by
            have hconsumes := item.consumes hr
            rw [← hn, TokenStream.size]
            omega
          refine (ih _ hlt (hjoin hleft hq) rest' rfl).mono fun vs p hp => ?_
          rwa [List.append_assoc] at hp
      exact hmore.cons (joinTail_more item op left o rest) (joinTail_more item' op left)
    by_cases hfailed : ∃ e, s = .failed e
    · obtain ⟨e, rfl⟩ := hfailed
      refine tracksAt_fails ⟨[], left, halone⟩ (joinTail_failed item op left e) fun s' hf => ?_
      cases hf
      exact ⟨_, joinTail_failed item' op left _⟩
    · have hne : ∀ e, s ≠ .failed e := fun e hs => hfailed ⟨e, hs⟩
      have hop : ∀ o rest, s ≠ .token (.join op) o rest := fun o rest hs => h ⟨o, rest, hs⟩
      refine tracksAt_stays halone (joinTail_end item left hne hop) fun s' hf => ?_
      exact joinTail_end item' left (hf.ne_failed hne) (hf.ne_token hop)

theorem tracks_joined (hitem : Tracks I item.run item'.run) (hone : ∀ {ts p}, I ts p → C ts p)
    (hjoin : ∀ {ts us p q}, C ts p → I us q → C (ts ++ .join op :: us) (.join op p q)) :
    Tracks C (joined item op).run (joined item' op).run := by
  intro s
  have hbind : TracksAt C (fun s => (item.run s).bind (joinTail item op))
      (fun s => (item'.run s).bind (joinTail item' op)) s := by
    refine (hitem s).bind ?_ ?_
    · intro ts p hp
      refine ⟨[], p, ?_⟩
      rw [List.append_nil]
      exact hone hp
    · intro ts p rest _ hp
      exact tracks_joinTail hitem hjoin (hone hp) rest
  exact hbind.of_eq (joined_run item op s) fun s' _ => joined_run item' op s'

end

/-! ## Clauses -/

/-- The tokens are a phrase of the grammar, however deep it is nested. -/
def Phrase (c : Category) (ts : List Token) (p : Predicate) : Prop := ∃ n, Derives c n ts p

theorem phrase_boolean (b : Bool) : Phrase .clause [.boolean b] (.boolean b) :=
  ⟨0, .condition (.boolean b)⟩

theorem tracks_expressionOf {inner inner' : Reader Predicate}
    (h : Tracks (Phrase .clause) inner.run inner'.run) :
    Tracks (Phrase .expression) (expressionOf inner).run (expressionOf inner').run := by
  have hconjunction : Tracks (Phrase .conjunction) (joined inner .and).run (joined inner' .and).run :=
    tracks_joined h (fun ⟨n, hp⟩ => ⟨n, .clause hp⟩) fun ⟨m, hp⟩ ⟨n, hq⟩ => ⟨max m n, .and hp hq⟩
  exact tracks_joined hconjunction (fun ⟨n, hp⟩ => ⟨n, .conjunction hp⟩)
    fun ⟨m, hp⟩ ⟨n, hq⟩ => ⟨max m n, .or hp hq⟩

theorem tracks_clauseRun {inner inner' : Reader Predicate}
    (h : Tracks (Phrase .clause) inner.run inner'.run) :
    Tracks (Phrase .clause) (clauseRun inner) (clauseRun inner') := by
  intro s
  by_cases hnot : ∃ o rest, s = .token .not o rest
  · obtain ⟨o, rest, rfl⟩ := hnot
    have hmore : TracksAt (fun ts p => Phrase .clause (.not :: ts) p)
        (fun s => (inner.run s).bind fun p => .ok (not p))
        (fun s => (inner'.run s).bind fun p => .ok (not p)) rest :=
      (h rest).map fun ts p ⟨n, hp⟩ => ⟨n + 1, .not hp⟩
    exact hmore.cons (clauseRun_not inner o rest) (clauseRun_not inner')
  by_cases hparen : ∃ o rest, s = .token .leftParen o rest
  · obtain ⟨o, rest, rfl⟩ := hparen
    have hmore : TracksAt (fun ts p => Phrase .clause (.leftParen :: ts) p)
        (fun s => ((expressionOf inner).run s).bind fun p s =>
          (expect .rightParen s).bind fun _ => .ok p)
        (fun s => ((expressionOf inner').run s).bind fun p s =>
          (expect .rightParen s).bind fun _ => .ok p) rest := by
      refine (tracks_expressionOf h rest).bind ?_ ?_
      · rintro ts p ⟨n, hp⟩
        exact ⟨[.rightParen], p, n + 1, .parens hp⟩
      · rintro ts p rest' - ⟨n, hp⟩
        refine (tracks_expect .rightParen rest').map ?_
        rintro us _ rfl
        exact ⟨n + 1, .parens hp⟩
    exact hmore.cons (clauseRun_leftParen inner o rest) (clauseRun_leftParen inner')
  · have hne₁ : ∀ o rest, s ≠ .token .not o rest := fun o rest hs => hnot ⟨o, rest, hs⟩
    have hne₂ : ∀ o rest, s ≠ .token .leftParen o rest := fun o rest hs => hparen ⟨o, rest, hs⟩
    have hcondition := (tracks_conditionRun s).mono fun ts p hp =>
      (⟨0, .condition hp⟩ : Phrase .clause ts p)
    exact hcondition.of_eq (clauseRun_condition inner hne₁ hne₂)
      fun s' hf => clauseRun_condition inner' (hf.ne_token hne₁) (hf.ne_token hne₂)

theorem clause_failed (budget : Nat) (e : LexError) :
    (clause budget).run (.failed e) = .error (.lexical e) (.failed e) := by
  cases budget with
  | zero => rfl
  | succ budget => rfl

theorem tracks_clause {b b' : Nat} (h : b ≤ b') :
    Tracks (Phrase .clause) (clause b).run (clause b').run := by
  induction b generalizing b' with
  | zero =>
    intro s
    cases s with
    | eof offset => exact .inl trivial
    | token t offset rest => exact .inl trivial
    | failed e =>
      refine tracksAt_fails ⟨_, _, phrase_boolean true⟩ (clause_failed 0 e) fun s' hf => ?_
      cases hf
      exact ⟨_, clause_failed b' _⟩
  | succ b ih =>
    obtain ⟨k, rfl⟩ : ∃ k, b' = k + 1 := ⟨b' - 1, by omega⟩
    exact tracks_clauseRun (ih (by omega))

/-- The reader of expressions and one that may open more levels. -/
theorem tracks_expression {b : Nat} (h : nestingLimit ≤ b) :
    Tracks (Phrase .expression) expression.run (phrase b .expression).run :=
  tracks_expressionOf (tracks_clause h)

end Predicate

end RecordFilter
