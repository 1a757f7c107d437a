import RecordFilter.Proofs.Token.Spelled

/-!
# Looking ahead

A lexer may be asked for its next token, or to look at it without delivering it.  Whatever the
calls, its replies are those of its stream: each `next` moves on by one token, a `peek` stays, and
nothing moves on from the end or from a lexical error.

    (l.call c).1 = l.stream.head         (l.call c).2.tokenStart = l.stream.offset
    l.next.2.stream = l.stream.tail      l.peek.2.stream = l.stream
-/

namespace RecordFilter

/-! ## Streams -/

namespace TokenStream

/-- What comes first: a token, the end or an error. -/
def head : TokenStream → Except LexError Token
  | eof _ => .ok .eof
  | failed e => .error e
  | token t _ _ => .ok t

/-- The offset of what comes first. -/
def offset : TokenStream → Nat
  | eof offset => offset
  | failed e => e.offset
  | token _ offset _ => offset

/-- What comes after the first token; the end and an error are never left behind. -/
def tail : TokenStream → TokenStream
  | eof offset => eof offset
  | failed e => failed e
  | token _ _ rest => rest

end TokenStream

theorem offset_of_scanFront {start : Nat} {cs : List Char} {e : LexError}
    (h : scanFront start cs = .failed e) : e.offset = start := by
  unfold scanFront at h
  split at h
  · cases h
  · split at h
    · cases h
      rfl
    · split at h
      · cases h
        rfl
      · cases h

theorem ne_eof_of_scanFront {start : Nat} {cs : List Char} {t : Token} {l : Lexeme}
    (h : scanFront start cs = .token t l) : t ≠ .eof := by
  rintro rfl
  exact isWord_of_scanFront h

/-- The end of a text is nowhere but behind all of it. -/
theorem eq_nil_of_scanFront {start : Nat} {cs : List Char} (h : scanFront start cs = .eof) :
    cs = [] := by
  unfold scanFront at h
  split at h
  · rfl
  · split at h
    · cases h
    · split at h <;> cases h

theorem tight_dropWhile (cs : List Char) : Tight (cs.dropWhile isGap) := by
  cases h : cs.dropWhile isGap with
  | nil => trivial
  | cons c rest =>
    have hc := List.head_dropWhile_not isGap (l := cs) (by simp [h])
    simpa [Tight, h] using hc

/-! ## One call -/

namespace Lexer

/-- What the lexer takes off the text, beside the stream of the text. -/
theorem scan_cases (l : Lexer) :
    (∃ start, l.scan = (.ok .eof, ⟨[], start, start, none⟩) ∧
      streamFrom l.position l.rest = .eof start) ∨
    (∃ e cs, l.scan = (.error e, ⟨cs, e.offset, e.offset, none⟩) ∧
      streamFrom l.position l.rest = .failed e ∧ streamFrom e.offset cs = .failed e) ∨
    ∃ t start rest position, t ≠ .eof ∧ l.scan = (.ok t, ⟨rest, position, start, none⟩) ∧
      streamFrom l.position l.rest = .token t start (streamFrom position rest) := by
  rw [streamFrom_eq, scan]
  cases hs : scanFront (l.position + (l.rest.takeWhile isGap).length) (l.rest.dropWhile isGap) with
  | eof =>
    rw [eq_nil_of_scanFront hs]
    exact .inl ⟨_, rfl, rfl⟩
  | failed e =>
    have hstart := offset_of_scanFront hs
    refine .inr (.inl ⟨e, l.rest.dropWhile isGap, ?_, rfl, ?_⟩)
    · rw [hstart]
    · rw [hstart]
      exact streamFrom_failed (tight_dropWhile l.rest) hs
  | token t lexeme => exact .inr (.inr ⟨t, _, _, _, ne_eof_of_scanFront hs, rfl, rfl⟩)

/-- The end is only looked at where all of the text is read. -/
def Coherent (l : Lexer) : Prop := l.peeked = some .eof → l.rest = [] ∧ l.position = l.tokenStart

theorem coherent_ofString (s : String) : (ofString s).Coherent := nofun

variable {l : Lexer}

theorem stream_of_peeked {t : Token} (h : l.peeked = some t) (ht : t ≠ .eof) :
    l.stream = .token t l.tokenStart (streamFrom l.position l.rest) := by
  rw [stream, h]
  cases t with
  | eof => exact absurd rfl ht
  | _ => rfl

theorem stream_of_peeked_eof (h : l.peeked = some .eof) : l.stream = .eof l.tokenStart := by
  rw [stream, h]

/-- Where nothing is looked at, `next` scans the text. -/
theorem next_of_peeked_none (h : l.peeked = none) :
    l.next = l.scan ∧ l.stream = streamFrom l.position l.rest := by
  rw [next, stream, h]
  exact ⟨rfl, rfl⟩

theorem next_spec (h : l.Coherent) :
    l.next.1 = l.stream.head ∧ l.next.2.stream = l.stream.tail ∧
      l.next.2.tokenStart = l.stream.offset ∧ l.next.2.peeked = none := by
  cases hp : l.peeked with
  | none =>
    obtain ⟨hn, hs⟩ := next_of_peeked_none hp
    rw [hn, hs]
    obtain ⟨start, hl, hf⟩ | ⟨e, cs, hl, hf, hrest⟩ | ⟨t, start, rest, position, -, hl, hf⟩ :=
      l.scan_cases
    · rw [hl, hf]
      exact ⟨rfl, streamFrom_nil start, rfl, rfl⟩
    · rw [hl, hf]
      exact ⟨rfl, hrest, rfl, rfl⟩
    · rw [hl, hf]
      exact ⟨rfl, rfl, rfl, rfl⟩
  | some t =>
    rw [next, hp]
    by_cases ht : t = .eof
    · subst ht
      obtain ⟨hrest, hpos⟩ := h hp
      have hend : streamFrom l.position l.rest = .eof l.tokenStart := by
        rw [hrest, hpos, streamFrom_nil]
      rw [stream_of_peeked_eof hp]
      exact ⟨rfl, hend, rfl, rfl⟩
    · rw [stream_of_peeked hp ht]
      exact ⟨rfl, rfl, rfl, rfl⟩

theorem peek_spec (h : l.Coherent) :
    l.peek.1 = l.stream.head ∧ l.peek.2.stream = l.stream ∧
      l.peek.2.tokenStart = l.stream.offset ∧ l.peek.2.Coherent := by
  cases hp : l.peeked with
  | none =>
    obtain ⟨hn, hs⟩ := next_of_peeked_none hp
    rw [peek, hn, hs]
    obtain ⟨start, hl, hf⟩ | ⟨e, cs, hl, hf, hrest⟩ | ⟨t, start, rest, position, ht, hl, hf⟩ :=
      l.scan_cases
    · rw [hl, hf]
      exact ⟨rfl, rfl, rfl, fun _ => ⟨rfl, rfl⟩⟩
    · rw [hl, hf]
      exact ⟨rfl, hrest, rfl, nofun⟩
    · rw [hl, hf]
      exact ⟨rfl, stream_of_peeked rfl ht, rfl, fun he => absurd (Option.some.inj he) ht⟩
  | some t =>
    -- the token is put back where it was
    have hback : l.peek = (.ok t, l) := by
      simp only [peek, next, hp]
      rw [← hp]
    rw [hback]
    by_cases ht : t = .eof
    · subst ht
      rw [stream_of_peeked_eof hp]
      exact ⟨rfl, rfl, rfl, h⟩
    · rw [stream_of_peeked hp ht]
      exact ⟨rfl, rfl, rfl, h⟩

/-! ## Calls -/

/-- What may be asked of a lexer. -/
inductive Call
  | next
  | peek
  deriving DecidableEq

def call (l : Lexer) : Call → Except LexError Token × Lexer
  | .next => l.next
  | .peek => l.peek

/-- The lexer after some calls. -/
def after (l : Lexer) (calls : List Call) : Lexer := calls.foldl (fun l c => (l.call c).2) l

/-- What a call gave, and where the lexer then said that it stands. -/
structure Reply where
  call : Call
  result : Except LexError Token
  start : Nat

def replies (l : Lexer) : List Call → List Reply
  | [] => []
  | c :: cs => ⟨c, (l.call c).1, (l.call c).2.tokenStart⟩ :: (l.call c).2.replies cs

end Lexer

namespace TokenStream

/-- The stream that is left after a call. -/
def afterCall (s : TokenStream) : Lexer.Call → TokenStream
  | .next => s.tail
  | .peek => s

/-- The replies of a stream: every call is told what comes first. -/
def replies (s : TokenStream) : List Lexer.Call → List Lexer.Reply
  | [] => []
  | c :: cs => ⟨c, s.head, s.offset⟩ :: (s.afterCall c).replies cs

theorem filter_replies (s : TokenStream) (calls : List Lexer.Call) :
    (s.replies calls).filter (·.call = .next) = s.replies (calls.filter (· = .next)) := by
  induction calls generalizing s with
  | nil => rfl
  | cons c cs ih =>
    cases c with
    | next =>
      rw [replies, List.filter_cons_of_pos (by simp), List.filter_cons_of_pos (by simp), replies, ih]
    | peek =>
      rw [replies, List.filter_cons_of_neg (by simp), List.filter_cons_of_neg (by simp), ih]
      rfl

end TokenStream

namespace Lexer

variable {l : Lexer}

theorem call_spec (h : l.Coherent) (c : Call) :
    (l.call c).1 = l.stream.head ∧ (l.call c).2.stream = l.stream.afterCall c ∧
      (l.call c).2.tokenStart = l.stream.offset ∧ (l.call c).2.Coherent := by
  cases c with
  | next =>
    obtain ⟨hr, hs, ho, hn⟩ := next_spec h
    refine ⟨hr, hs, ho, fun he => ?_⟩
    rw [show (l.call .next).2.peeked = none from hn] at he
    cases he
  | peek => exact peek_spec h

/-- The replies of a lexer are those of its stream. -/
theorem replies_eq (h : l.Coherent) (calls : List Call) : l.replies calls = l.stream.replies calls := by
  induction calls generalizing l with
  | nil => rfl
  | cons c cs ih =>
    obtain ⟨hr, hs, ho, hc⟩ := call_spec h c
    rw [replies, TokenStream.replies, ih hc, hr, hs, ho]

theorem after_cons (l : Lexer) (c : Call) (cs : List Call) :
    l.after (c :: cs) = (l.call c).2.after cs := rfl

theorem coherent_after (h : l.Coherent) (calls : List Call) : (l.after calls).Coherent := by
  induction calls generalizing l with
  | nil => exact h
  | cons c cs ih => exact ih (call_spec h c).2.2.2

/-- Calls that do not move on leave all of the stream to be delivered. -/
theorem stream_after_of_tail (h : l.Coherent) (ht : l.stream.tail = l.stream) (calls : List Call) :
    (l.after calls).stream = l.stream := by
  induction calls generalizing l with
  | nil => rfl
  | cons c cs ih =>
    obtain ⟨-, hs, -, hc⟩ := call_spec h c
    have hsame : (l.call c).2.stream = l.stream := by
      rw [hs]
      cases c with
      | next => exact ht
      | peek => rfl
    rw [after_cons, ih hc (by rw [hsame, ht]), hsame]

theorem stream_after_peeks (h : l.Coherent) (n : Nat) :
    (l.after (.replicate n .peek)).stream = l.stream := by
  induction n generalizing l with
  | zero => rfl
  | succ n ih =>
    obtain ⟨-, hs, -, hc⟩ := call_spec h .peek
    rw [List.replicate_succ, after_cons, ih hc, hs]
    rfl

end Lexer

/-! ## Texts -/

/-- What a call is told of the front of a text. -/
def Scan.reply : Scan → Except LexError Token
  | eof => .ok .eof
  | token t _ => .ok t
  | failed e => .error e

/-- `Shows text start r`: behind the first `start` characters of the text there is no blank, and
what begins there is what `r` says: a token, the end of the text or an error. -/
def Shows (text : List Char) (start : Nat) (r : Except LexError Token) : Prop :=
  ∃ before front, text = before ++ front ∧ before.length = start ∧ Tight front ∧
    (scanFront start front).reply = r

/-- The stream of what is left of a text behind some of it. -/
def StreamIn (text : List Char) (s : TokenStream) : Prop :=
  ∃ before rest, text = before ++ rest ∧ s = streamFrom before.length rest

theorem streamIn_ofString (s : String) : StreamIn s.toList (Lexer.ofString s).stream :=
  ⟨[], s.toList, rfl, rfl⟩

/-- The blanks in front of a token belong to what is before it. -/
theorem streamFrom_split (before rest : List Char) :
    ∃ gap front, rest = gap ++ front ∧ (∀ c ∈ gap, isGap c = true) ∧ Tight front ∧
      streamFrom before.length rest = streamFrom (before ++ gap).length front := by
  refine ⟨rest.takeWhile isGap, rest.dropWhile isGap, List.takeWhile_append_dropWhile.symm,
    fun c hc => List.mem_takeWhile_imp hc, tight_dropWhile rest, ?_⟩
  rw [streamFrom_eq, streamFrom_of_tight (tight_dropWhile rest), List.length_append]

variable {text : List Char} {s : TokenStream}

theorem StreamIn.exists_tight (h : StreamIn text s) :
    ∃ before front, text = before ++ front ∧ Tight front ∧
      s = streamFrom before.length front := by
  obtain ⟨before, rest, rfl, rfl⟩ := h
  obtain ⟨gap, front, rfl, -, ht, hs⟩ := streamFrom_split before rest
  exact ⟨before ++ gap, front, (List.append_assoc _ _ _).symm, ht, hs⟩

theorem StreamIn.tail (h : StreamIn text s) : StreamIn text s.tail := by
  obtain ⟨before, front, rfl, ht, rfl⟩ := h.exists_tight
  have hself := streamFrom_of_tight ht before.length
  cases hs : scanFront before.length front with
  | eof =>
    rw [hs] at hself
    rw [hself]
    exact ⟨before, front, rfl, hself.symm⟩
  | failed e =>
    rw [hs] at hself
    rw [hself]
    exact ⟨before, front, rfl, hself.symm⟩
  | token t lexeme =>
    obtain ⟨-, hbegins⟩ := begins_of_scanFront hs
    rw [hs] at hself
    rw [hself]
    refine ⟨before ++ lexeme.whole, lexeme.rest, ?_, ?_⟩
    · rw [List.append_assoc, hbegins]
    · rw [List.length_append]
      rfl

theorem offset_streamFrom {front : List Char} (ht : Tight front) (start : Nat) :
    (streamFrom start front).offset = start ∧
      (streamFrom start front).head = (scanFront start front).reply := by
  rw [streamFrom_of_tight ht]
  cases hs : scanFront start front with
  | eof => exact ⟨rfl, rfl⟩
  | failed e => exact ⟨offset_of_scanFront hs, rfl⟩
  | token t lexeme => exact ⟨rfl, rfl⟩

theorem StreamIn.shows (h : StreamIn text s) : Shows text s.offset s.head := by
  obtain ⟨before, front, rfl, ht, rfl⟩ := h.exists_tight
  obtain ⟨ho, hh⟩ := offset_streamFrom ht before.length
  rw [ho, hh]
  exact ⟨before, front, rfl, rfl, ht, rfl⟩

/-- The end and an error are never left behind. -/
theorem StreamIn.tail_eq (h : StreamIn text s)
    (hs : s.head = .ok .eof ∨ ∃ e, s.head = .error e) : s.tail = s := by
  obtain ⟨before, front, rfl, ht, rfl⟩ := h.exists_tight
  have hself := streamFrom_of_tight ht before.length
  cases hscan : scanFront before.length front with
  | eof | failed =>
    rw [hscan] at hself
    rw [hself]
    rfl
  | token t lexeme =>
    rw [hscan] at hself
    rw [hself] at hs
    rcases hs with hs | ⟨e, hs⟩
    · cases hs
      exact absurd rfl (ne_eof_of_scanFront hscan)
    · cases hs

namespace Lexer

variable {l : Lexer}

/-! ## What is left of a text -/

/-- `l.ReadsOf text`: the lexer has the text in front of it that is behind its position. -/
def ReadsOf (l : Lexer) (text : List Char) : Prop :=
  ∃ taken, text = taken ++ l.rest ∧ taken.length = l.position

theorem readsOf_ofString (s : String) : (ofString s).ReadsOf s.toList := ⟨[], rfl, rfl⟩

theorem scan_rest (l : Lexer) :
    ∃ taken, l.rest = taken ++ l.scan.2.rest ∧ l.scan.2.position = l.position + taken.length := by
  have hsplit := List.takeWhile_append_dropWhile (p := isGap) (l := l.rest)
  rw [scan]
  cases hs : scanFront (l.position + (l.rest.takeWhile isGap).length) (l.rest.dropWhile isGap) with
  | eof | failed => exact ⟨l.rest.takeWhile isGap, hsplit.symm, rfl⟩
  | token t lexeme =>
    obtain ⟨-, hbegins⟩ := begins_of_scanFront hs
    refine ⟨l.rest.takeWhile isGap ++ lexeme.whole, ?_, ?_⟩
    · rw [List.append_assoc, hbegins, hsplit]
    · rw [List.length_append, ← Nat.add_assoc]

theorem next_rest (l : Lexer) :
    ∃ taken, l.rest = taken ++ l.next.2.rest ∧ l.next.2.position = l.position + taken.length := by
  cases hp : l.peeked with
  | none =>
    rw [(next_of_peeked_none hp).1]
    exact l.scan_rest
  | some t =>
    rw [next, hp]
    exact ⟨[], rfl, rfl⟩

theorem call_rest (l : Lexer) (c : Call) : ∃ taken,
    l.rest = taken ++ (l.call c).2.rest ∧ (l.call c).2.position = l.position + taken.length := by
  have hnext := l.next_rest
  cases c with
  | next => exact hnext
  | peek =>
    rw [call, peek]
    rcases hl : l.next with ⟨r, l'⟩
    rw [hl] at hnext
    cases r with
    | ok t => exact hnext
    | error e => exact hnext

theorem readsOf_call {text : List Char} (h : l.ReadsOf text) (c : Call) :
    (l.call c).2.ReadsOf text := by
  obtain ⟨before, rfl, hlen⟩ := h
  obtain ⟨taken, hrest, hpos⟩ := l.call_rest c
  refine ⟨before ++ taken, ?_, ?_⟩
  · rw [List.append_assoc, ← hrest]
  · rw [hpos, List.length_append, hlen]

theorem readsOf_after {text : List Char} (h : l.ReadsOf text) (calls : List Call) :
    (l.after calls).ReadsOf text := by
  induction calls generalizing l with
  | nil => exact h
  | cons c cs ih => exact ih (readsOf_call h c)

theorem streamIn_after {text : List Char} (h : l.Coherent) (hs : StreamIn text l.stream)
    (calls : List Call) : StreamIn text (l.after calls).stream := by
  induction calls generalizing l with
  | nil => exact hs
  | cons c cs ih =>
    obtain ⟨-, hstream, -, hc⟩ := call_spec h c
    refine ih hc ?_
    rw [hstream]
    cases c with
    | next => exact hs.tail
    | peek => exact hs

/-- A lexer that comes upon an error stands at the error. -/
theorem position_of_error {c : Call} {e : LexError} (he : (l.call c).1 = .error e) :
    (l.call c).2.position = e.offset := by
  have hp : l.peeked = none := by
    cases hp : l.peeked with
    | none => rfl
    | some t => cases c <;> simp [call, peek, next, hp] at he
  have hn := (next_of_peeked_none hp).1
  obtain ⟨start, hl, -⟩ | ⟨e', cs, hl, -⟩ | ⟨t, start, rest, position, -, hl, -⟩ := l.scan_cases
  all_goals
    cases c <;> simp only [call, peek, hn, hl] at he ⊢ <;> cases he
  all_goals rfl

/-- What a call tells of the end or of an error is told ever after. -/
theorem call_stays {text : List Char} (h : l.Coherent) (hs : StreamIn text l.stream) {c : Call}
    (hend : (l.call c).1 = .ok .eof ∨ ∃ e, (l.call c).1 = .error e) (more : List Call)
    (c' : Call) : (((l.call c).2.after more).call c').1 = (l.call c).1 := by
  obtain ⟨hr, hafter, -, hc⟩ := call_spec h c
  rw [hr] at hend
  have htail := hs.tail_eq hend
  have hsame : (l.call c).2.stream = l.stream := by
    rw [hafter]
    cases c with
    | next => exact htail
    | peek => rfl
  obtain ⟨hr', -⟩ := call_spec (coherent_after hc more) c'
  rw [hr', stream_after_of_tail hc (by rw [hsame, htail]), hsame, hr]

/-- **Looking ahead makes no difference.**  Whatever was asked of a lexer before: leaving out every
`peek` leaves out its reply and nothing else; a `peek` tells what the next `next` delivers, however
many more of them come between; the end stays the end; an error stays in the text and is told
again by every call; and where the lexer says that it stands, the text has what it told last. -/
theorem lookahead_transparent (s : String) (calls : List Call) :
    let l := (ofString s).after calls
    ((ofString s).replies calls).filter (·.call = .next) =
        (ofString s).replies (calls.filter (· = .next)) ∧
      (∀ n, (l.peek.2.after (.replicate n .peek)).next.1 = l.peek.1) ∧
      (∀ c, (l.call c).1 = .ok .eof →
        ∀ more c', (((l.call c).2.after more).call c').1 = .ok .eof) ∧
      (∀ c e, (l.call c).1 = .error e → (l.call c).2.rest = s.toList.drop e.offset ∧
        ∀ more c', (((l.call c).2.after more).call c').1 = .error e) ∧
      ∀ c, Shows s.toList (l.call c).2.tokenStart (l.call c).1 := by
  intro l
  have hl : l.Coherent := coherent_after (coherent_ofString s) calls
  have hstream : StreamIn s.toList l.stream :=
    streamIn_after (coherent_ofString s) (streamIn_ofString s) calls
  refine ⟨?_, fun n => ?_, fun c he more c' => ?_, fun c e he => ⟨?_, fun more c' => ?_⟩,
    fun c => ?_⟩
  · rw [replies_eq (coherent_ofString s), replies_eq (coherent_ofString s),
      TokenStream.filter_replies]
  · obtain ⟨hr, hs, -, hc⟩ := peek_spec hl
    obtain ⟨hr', -⟩ := next_spec (coherent_after hc (.replicate n .peek))
    rw [hr', stream_after_peeks hc, hs, hr]
  · rw [call_stays hl hstream (.inl he), he]
  · obtain ⟨taken, htext, hlen⟩ :=
      readsOf_call (readsOf_after (readsOf_ofString s) calls) c
    rw [htext, ← position_of_error he, ← hlen, List.drop_left]
  · rw [call_stays hl hstream (.inr ⟨e, he⟩), he]
  · obtain ⟨hr, -, ho, -⟩ := call_spec hl c
    rw [hr, ho]
    exact hstream.shows

end Lexer

end RecordFilter
