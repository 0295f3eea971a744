import LinkPane.Proofs.Json.Soundness
import LinkPane.Proofs.Text.Octets

/-!
# Where reading stops

A text that is no value is refused at the end of the text, or at a character; and then the character and what
comes before it are all that the reader has looked at:

* `Looked` -- how far into a character a refusal may have looked;
* `State.Regular` -- an invariant: words are ASCII, and less than four octets of a code unit are read;
* `State.step_alike` -- a character that is not read on is dealt with by what all characters like it share;
* `RefusedAt` -- the reader refuses a character behind some text, whatever comes behind that character;
* **`refused_of_readAll`** -- every fault is at the end of the text or such a refusal.
-/

namespace LinkPane.Json

open Text (Alike)

/-! ## 1. Characters outside ASCII -/

section Foreign

variable {c d : Char} (hc : 127 < c.toNat)

include hc

theorem ne_of_foreign (hd : d.toNat ≤ 127) : c ≠ d := by
  rintro rfl
  omega

theorem not_le_of_foreign (hd : d.toNat ≤ 127) : ¬ c ≤ d := by
  intro h
  have hle : c.toNat ≤ d.toNat := h
  omega

theorem isBlank_of_foreign : isBlank c = false := by
  simp [isBlank, ne_of_foreign hc (d := ' ') (by decide), ne_of_foreign hc (d := '\t') (by decide),
    ne_of_foreign hc (d := '\n') (by decide), ne_of_foreign hc (d := '\r') (by decide)]

theorem isDigit_of_foreign : isDigit c = false := by
  simp [isDigit, not_le_of_foreign hc (d := '9') (by decide)]

theorem isMark_of_foreign : isMark c = false := by
  simp [isMark, ne_of_foreign hc (d := 'e') (by decide), ne_of_foreign hc (d := 'E') (by decide)]

theorem hexValue?_of_foreign : hexValue? c = none := by
  simp [hexValue?, not_le_of_foreign hc (d := '9') (by decide), not_le_of_foreign hc (d := 'f') (by decide),
    not_le_of_foreign hc (d := 'F') (by decide)]

theorem shortEscape?_of_foreign : shortEscape? c = none := by
  refine List.lookup_eq_none_iff.mpr fun entry hentry => bne_iff_ne.mpr (ne_of_foreign hc ?_)
  have hascii : ∀ entry ∈ shortEscapes, entry.1.toNat ≤ 127 := by decide
  exact hascii entry hentry

/-- A number either ends before such a character or may not have it. -/
theorem Place.step_of_foreign (place : Place) :
    place.step c = if place.isEnd then .ended else .refused := by
  cases place <;> simp [Place.step, Place.isEnd, isDigit_of_foreign hc, isMark_of_foreign hc,
    ne_of_foreign hc (d := '.') (by decide), ne_of_foreign hc (d := '+') (by decide),
    ne_of_foreign hc (d := '-') (by decide)]

theorem begin_of_foreign (limit : Nat) (frames : List Frame) :
    State.begin limit frames c = .refuse .expectedValue 1 := by
  simp [State.begin, isDigit_of_foreign hc, ne_of_foreign hc (d := 'n') (by decide),
    ne_of_foreign hc (d := 't') (by decide), ne_of_foreign hc (d := 'f') (by decide),
    ne_of_foreign hc (d := '"') (by decide), ne_of_foreign hc (d := '[') (by decide),
    ne_of_foreign hc (d := '{') (by decide), ne_of_foreign hc (d := '-') (by decide)]

/-- Digits with such a character among them have no value. -/
theorem hexValues?_of_foreign (read : List Char) : hexValues? (read.reverse ++ [c]) = none := by
  rw [hexValues?, List.foldlM_append]
  cases read.reverse.foldlM (fun n c => (hexValue? c).map (16 * n + ·)) 0 with
  | none => rfl
  | some n => simp [hexValue?_of_foreign hc]

theorem push_of_foreign (read : List Char) : Hex.push read c =
    if Text.size (c :: read) < hexWidth then .more (c :: read) else .refused (hexWidth - Text.size read) := by
  rw [Hex.push, List.reverse_cons, hexValues?_of_foreign hc]

end Foreign

/-! ## 2. Refusals -/

/-- A refusal looks into the character, and not into what comes behind it; only a number that is too large may
    be refused without a look. It is not for want of text. -/
structure Looked (c : Char) (cause : Cause) (seen : Nat) : Prop where
  inside : seen ≤ c.utf8Size
  looked : cause ≠ .numberOutOfRange → 1 ≤ seen
  notEnd : cause.isEnd = false

/-- Less than four octets of a code unit are read. -/
def Quote.Regular (q : Quote) : Prop :=
  match q.mode with
  | .hex read => Text.size read < hexWidth
  | .leadHex _ read => Text.size read < hexWidth
  | _ => True

/-- Words are in ASCII, and texts regular. -/
def State.Regular (s : State) : Prop :=
  match s with
  | .inKey q _ _ => q.Regular
  | .inText q _ => q.Regular
  | .inWord c rest _ _ => ∀ d ∈ c :: rest, d.toNat ≤ 127
  | _ => True

section

variable {limit : Nat} {frames : List Frame} {s s' : State} {v : Value} {c d : Char} {cause : Cause}
  {seen : Nat}

theorem looked_first (h : cause.isEnd = false) : Looked c cause 1 :=
  ⟨c.utf8Size_pos, fun _ => Nat.le_refl 1, h⟩

theorem looked_outOfRange : Looked c .numberOutOfRange 0 :=
  ⟨Nat.zero_le _, fun h => absurd rfl h, rfl⟩

theorem looked_of_push {read : List Char} (hr : Text.size read < hexWidth)
    (h : Hex.push read c = .refused seen) : Looked c .invalidEscape seen := by
  unfold Hex.push at h
  split at h
  · cases h
  · rename_i hsize
    rw [Text.size_cons] at hsize
    split at h
    · cases h
    · cases h
      exact ⟨by omega, fun _ => by omega, rfl⟩

theorem Quote.looked_of_refuse {q : Quote} (hr : q.Regular) (h : q.step c = .refuse cause seen) :
    Looked c cause seen := by
  obtain ⟨mode, read⟩ := q
  cases mode with
  | plain =>
    simp only [step] at h
    repeat' split at h
    all_goals cases h
    all_goals exact looked_first rfl
  | escape =>
    simp only [step] at h
    repeat' split at h
    all_goals cases h
    exact looked_first rfl
  | hex digits =>
    simp only [step, firstUnit] at h
    split at h
    · cases h
    · repeat' split at h
      all_goals cases h
      exact looked_first rfl
    · rename_i hpush
      cases h
      exact looked_of_push hr hpush
  | lead m =>
    simp only [step] at h
    split at h
    · cases h
    · cases h
      exact looked_first rfl
  | leadEscape m =>
    simp only [step] at h
    split at h
    · cases h
    · cases h
      exact looked_first rfl
  | leadHex m digits =>
    simp only [step, secondUnit] at h
    split at h
    · cases h
    · split at h
      · cases h
      · cases h
        exact looked_first rfl
    · rename_i hpush
      cases h
      exact looked_of_push hr hpush

theorem Digits.finish_eq_error {n : Digits} (h : n.finish = .error cause) : cause = .numberOutOfRange := by
  unfold finish at h
  split at h
  · cases h
  · cases h
    rfl

theorem Digits.looked_of_refuse {n : Digits} (h : n.step c = .refuse cause seen) : Looked c cause seen := by
  unfold step at h
  split at h
  · dsimp only at h
    split at h
    · cases h
      exact looked_first rfl
    · cases h
  · split at h
    · cases h
    · rename_i hfinish
      cases h
      obtain rfl := finish_eq_error hfinish
      exact looked_outOfRange
  · cases h
    exact looked_first rfl

theorem looked_of_begin (h : State.begin limit frames c = .refuse cause seen) : Looked c cause seen := by
  unfold State.begin State.enter at h
  repeat' split at h
  all_goals cases h
  all_goals exact looked_first rfl

theorem looked_of_follow (h : State.follow v frames c = .refuse cause seen) : Looked c cause seen := by
  unfold State.follow at h
  repeat' split at h
  all_goals cases h
  all_goals exact looked_first rfl

/-- **What a refusal has looked at**: the beginning of the character, and nothing behind it. -/
theorem State.looked_of_refuse (hr : s.Regular) (h : s.step limit c = .refuse cause seen) :
    Looked c cause seen := by
  cases s with
  | inKey q members frames =>
    simp only [step] at h
    split at h
    · cases h
    · cases h
    · rename_i hq
      cases h
      exact Quote.looked_of_refuse hr hq
  | inText q frames =>
    simp only [step] at h
    split at h
    · cases h
    · cases h
    · rename_i hq
      cases h
      exact Quote.looked_of_refuse hr hq
  | inNumber n frames =>
    simp only [step] at h
    split at h
    · cases h
    · exact looked_of_follow h
    · rename_i hn
      cases h
      exact Digits.looked_of_refuse hn
  | afterValue v frames => exact looked_of_follow h
  | _ =>
    simp only [step] at h
    repeat' split at h
    all_goals first | cases h | exact looked_of_begin h
    all_goals exact looked_first rfl

/-! ## 3. Regular states -/

theorem Quote.Regular.next {q q' : Quote} (h : q.step c = .next q') : q'.Regular := by
  obtain ⟨mode, read⟩ := q
  cases mode with
  | hex digits =>
    simp only [step, firstUnit] at h
    split at h
    · rename_i hpush
      cases h
      exact (size_of_push_more hpush).2
    · repeat' split at h
      all_goals cases h
      all_goals trivial
    · cases h
  | leadHex m digits =>
    simp only [step, secondUnit] at h
    split at h
    · rename_i hpush
      cases h
      exact (size_of_push_more hpush).2
    · split at h
      · cases h
        trivial
      · cases h
    · cases h
  | escape =>
    simp only [step] at h
    split at h
    · cases h
      show Text.size [] < hexWidth
      decide
    · split at h
      · cases h
        trivial
      · cases h
  | leadEscape m =>
    simp only [step] at h
    split at h
    · cases h
      show Text.size [] < hexWidth
      decide
    · cases h
  | _ =>
    simp only [step] at h
    repeat' split at h
    all_goals cases h
    all_goals trivial

theorem regular_of_begin (h : State.begin limit frames c = .next s') : s'.Regular := by
  unfold State.begin State.enter at h
  repeat' split at h
  all_goals cases h
  -- a word, a text or another state
  all_goals first
    | trivial
    | exact (by simp : ∀ d ∈ ['u', 'l', 'l'], d.toNat ≤ 127)
    | exact (by simp : ∀ d ∈ ['r', 'u', 'e'], d.toNat ≤ 127)
    | exact (by simp : ∀ d ∈ ['a', 'l', 's', 'e'], d.toNat ≤ 127)

theorem regular_of_follow (h : State.follow v frames c = .next s') : s'.Regular := by
  unfold State.follow at h
  repeat' split at h
  all_goals cases h
  all_goals trivial

/-- **Every character that is read keeps a state regular.** -/
theorem State.Regular.next (hr : s.Regular) (h : s.step limit c = .next s') : s'.Regular := by
  cases s with
  | inKey q members frames =>
    simp only [step] at h
    split at h
    · rename_i hq
      cases h
      exact Quote.Regular.next hq
    · cases h
      trivial
    · cases h
  | inText q frames =>
    simp only [step] at h
    split at h
    · rename_i hq
      cases h
      exact Quote.Regular.next hq
    · cases h
      trivial
    · cases h
  | inWord d rest value frames =>
    simp only [step] at h
    split at h
    · split at h
      · cases h
        trivial
      · cases h
        exact fun e he => hr e (List.mem_cons_of_mem _ he)
    · cases h
  | inNumber n frames =>
    simp only [step] at h
    split at h
    · cases h
      trivial
    · exact regular_of_follow h
    · cases h
  | afterValue v frames => exact regular_of_follow h
  | _ =>
    simp only [step] at h
    repeat' split at h
    all_goals first | cases h | exact regular_of_begin h
    all_goals trivial

/-! ## 4. Characters that are alike -/

/-- A text deals alike with alike characters, unless it reads them. -/
theorem Quote.step_alike {q : Quote} (h : Alike c d) (hn : ∀ q', q.step c ≠ .next q') :
    q.step d = q.step c := by
  rcases h with rfl | ⟨hc, hd, hsize⟩
  · rfl
  obtain ⟨mode, read⟩ := q
  have hsizes : ∀ digits, Text.size (d :: digits) = Text.size (c :: digits) := fun digits => by
    rw [Text.size_cons, Text.size_cons, hsize]
  cases mode with
  | plain =>
    have hcontrol : ¬ c < ' ' := fun hlt => by
      have hlow : c.toNat < 32 := hlt
      omega
    have hnext : Quote.step ⟨.plain, read⟩ c = .next (Quote.add ⟨.plain, read⟩ c) := by
      simp [step, ne_of_foreign hc (d := '"') (by decide), ne_of_foreign hc (d := '\\') (by decide), hcontrol]
    exact absurd hnext (hn _)
  | escape =>
    simp [step, ne_of_foreign hc (d := 'u') (by decide), ne_of_foreign hd (d := 'u') (by decide),
      shortEscape?_of_foreign hc, shortEscape?_of_foreign hd]
  | hex digits =>
    simp only [step, push_of_foreign hc, push_of_foreign hd, hsizes] at hn ⊢
    by_cases hmore : Text.size (c :: digits) < hexWidth
    · rw [if_pos hmore] at hn
      exact absurd rfl (hn _)
    · rw [if_neg hmore, if_neg hmore]
  | lead m =>
    simp [step, ne_of_foreign hc (d := '\\') (by decide), ne_of_foreign hd (d := '\\') (by decide)]
  | leadEscape m =>
    simp [step, ne_of_foreign hc (d := 'u') (by decide), ne_of_foreign hd (d := 'u') (by decide)]
  | leadHex m digits =>
    simp only [step, push_of_foreign hc, push_of_foreign hd, hsizes] at hn ⊢
    by_cases hmore : Text.size (c :: digits) < hexWidth
    · rw [if_pos hmore] at hn
      exact absurd rfl (hn _)
    · rw [if_neg hmore, if_neg hmore]

theorem Digits.step_alike {n : Digits} (h : Alike c d) : n.step d = n.step c := by
  rcases h with rfl | ⟨hc, hd, -⟩
  · rfl
  · rw [step, step, Place.step_of_foreign hc, Place.step_of_foreign hd]
    cases n.place.isEnd <;> rfl

theorem follow_alike (v : Value) (frames : List Frame) (hc : 127 < c.toNat) (hd : 127 < d.toNat) :
    State.follow v frames d = State.follow v frames c := by
  unfold State.follow
  split
  · rfl
  all_goals
    simp [isBlank_of_foreign hc, isBlank_of_foreign hd, ne_of_foreign hc (d := ',') (by decide),
      ne_of_foreign hd (d := ',') (by decide), ne_of_foreign hc (d := ']') (by decide),
      ne_of_foreign hd (d := ']') (by decide), ne_of_foreign hc (d := '}') (by decide),
      ne_of_foreign hd (d := '}') (by decide)]

/-- **A character that is not read on is dealt with like all that are like it.** -/
theorem State.step_alike (hr : s.Regular) (h : Alike c d) (hn : ∀ s', s.step limit c ≠ .next s') :
    s.step limit d = s.step limit c := by
  have halike := h
  rcases h with rfl | ⟨hc, hd, -⟩
  · rfl
  cases s with
  | inKey q members frames =>
    have hq : q.step d = q.step c :=
      Quote.step_alike halike fun q' hq => hn (.inKey q' members frames) (by simp only [step, hq])
    simp only [step, hq]
  | inText q frames =>
    have hq : q.step d = q.step c :=
      Quote.step_alike halike fun q' hq => hn (.inText q' frames) (by simp only [step, hq])
    simp only [step, hq]
  | inWord e rest value frames =>
    have hascii : e.toNat ≤ 127 := hr e List.mem_cons_self
    simp only [step, ne_of_foreign hc hascii, ne_of_foreign hd hascii, if_false]
  | inNumber n frames =>
    simp only [step, Digits.step_alike halike, follow_alike _ frames hc hd]
  | afterValue v frames => exact follow_alike v frames hc hd
  | _ =>
    simp [step, isBlank_of_foreign hc, isBlank_of_foreign hd, begin_of_foreign hc, begin_of_foreign hd,
      ne_of_foreign hc (d := ']') (by decide), ne_of_foreign hd (d := ']') (by decide),
      ne_of_foreign hc (d := '}') (by decide), ne_of_foreign hd (d := '}') (by decide),
      ne_of_foreign hc (d := '"') (by decide), ne_of_foreign hd (d := '"') (by decide),
      ne_of_foreign hc (d := ':') (by decide), ne_of_foreign hd (d := ':') (by decide)]

/-! ## 5. Faults of whole texts -/

/-- A character behind `read` is refused with `seen` of its octets looked at, whatever comes behind it; and so
    is every character like it. -/
structure RefusedAt (limit : Nat) (read : List Char) (c : Char) (cause : Cause) (seen : Nat) : Prop where
  looked : Looked c cause seen
  refuses : ∀ {d}, Alike c d → ∀ rest,
    readAll (readValue limit) (read ++ d :: rest) = .error (.after cause seen (d :: rest))

theorem isBlank_alike (h : Alike c d) : isBlank d = isBlank c := by
  rcases h with rfl | ⟨hc, hd, -⟩
  · rfl
  · rw [isBlank_of_foreign hc, isBlank_of_foreign hd]

/-- The state behind the text that is read. -/
theorem regular_of_feed {read : List Char} (h : (valueMachine limit).feed (.beforeValue []) read = some s) :
    s.Regular := by
  have hfirst : (State.beforeValue []).Regular := trivial
  exact (valueMachine limit).feed_keeps_state State.Regular.next hfirst h

theorem refusedAt_of_step {read : List Char}
    (hread : (valueMachine limit).feed (.beforeValue []) read = some s)
    (hs : s.step limit c = .refuse cause seen) : RefusedAt limit read c cause seen := by
  have hr := regular_of_feed hread
  refine ⟨State.looked_of_refuse hr hs, fun {d} halike rest => ?_⟩
  have hn : ∀ s', s.step limit c ≠ .next s' := fun s' h => by rw [hs] at h; cases h
  have hd : (valueMachine limit).step s d = .refuse cause seen := (State.step_alike hr halike hn).trans hs
  have hrun : readValue limit (read ++ d :: rest) = .error (.after cause seen (d :: rest)) := by
    rw [readValue, Machine.run_append _ hread, Machine.run, hd]
  rw [readAll, hrun]

theorem dropBlank_eq_cons {text rest : List Char} (h : dropBlank text = c :: rest) :
    ∃ blanks, text = blanks ++ c :: rest ∧ Blank blanks ∧ isBlank c = false := by
  have hblank : Blank (text.takeWhile isBlank) := fun e he =>
    isBlank_iff.mp (List.all_eq_true.mp List.all_takeWhile e he)
  refine ⟨text.takeWhile isBlank, ?_, hblank, ?_⟩
  · rw [← h, dropBlank, List.takeWhile_append_dropWhile]
  · have hhead := List.head?_dropWhile_not isBlank text
    rw [show text.dropWhile isBlank = c :: rest from h] at hhead
    simpa using hhead

/-- Behind a value and blanks there must be nothing. -/
theorem refusedAt_of_trailing {read blanks : List Char}
    (hread : (valueMachine limit).feed (.beforeValue []) read = some s) (hb : Blank blanks)
    (hc : isBlank c = false) (hstop : ∀ e, (blanks ++ [c]).head? = some e → s.step limit e = .stop v) :
    RefusedAt limit (read ++ blanks) c .trailingCharacters 1 := by
  have hr := regular_of_feed hread
  refine ⟨looked_first rfl, fun {d} halike rest => ?_⟩
  have hrun : readValue limit (read ++ (blanks ++ d :: rest)) = .ok (v, blanks ++ d :: rest) := by
    rw [readValue, Machine.run_append _ hread]
    cases blanks with
    | nil =>
      have hlast : s.step limit c = .stop v := hstop c rfl
      have hn : ∀ s', s.step limit c ≠ .next s' := fun s' h => by rw [hlast] at h; cases h
      have hd : (valueMachine limit).step s d = .stop v := (State.step_alike hr halike hn).trans hlast
      rw [List.nil_append, Machine.run, hd]
    | cons b blanks =>
      have hlast : (valueMachine limit).step s b = .stop v := hstop b rfl
      rw [List.cons_append, Machine.run, hlast]
  have hd : isBlank d = false := (isBlank_alike halike).trans hc
  rw [List.append_assoc, readAll, hrun]
  simp only [dropBlank_append hb hd]
  rfl

theorem finish_eq_error (h : s.finish = .error cause) : cause.isEnd = true ∨ cause = .numberOutOfRange := by
  unfold State.finish State.finishAfter at h
  repeat' split at h
  all_goals cases h
  all_goals first | exact .inl rfl | exact .inr (Digits.finish_eq_error ‹_›)

/-- **Every fault is at the end of the text or at a character**, and there the reader has not looked behind the
    character. -/
theorem refused_of_readAll {text : List Char} {fault : Fault}
    (h : readAll (readValue limit) text = .error fault) :
    (fault.unseen = 0 ∧ (fault.cause.isEnd = true ∨ fault.cause = .numberOutOfRange)) ∨
      ∃ read c rest seen, text = read ++ c :: rest ∧ fault = .after fault.cause seen (c :: rest) ∧
        RefusedAt limit read c fault.cause seen := by
  unfold readAll at h
  split at h
  · rename_i found hrun
    cases h
    obtain ⟨read, s, hread, hend⟩ := Machine.fed_of_run_error _ hrun
    rcases hend with ⟨-, hfinish, hunseen⟩ | ⟨c, rest, seen, htext, hstep, hfault⟩
    · exact .inl ⟨hunseen, finish_eq_error hfinish⟩
    · exact .inr ⟨read, c, rest, seen, htext, hfault, refusedAt_of_step hread hstep⟩
  · rename_i v rest hrun
    split at h
    · cases h
    · rename_i behind hne
      cases h
      obtain ⟨c, more, hbehind⟩ := List.exists_cons_of_ne_nil hne
      obtain ⟨blanks, rfl, hblanks, hc⟩ := dropBlank_eq_cons hbehind
      obtain ⟨read, s, rfl, hread, hend⟩ := Machine.fed_of_run _ hrun
      rcases hend with ⟨hnil, -⟩ | ⟨e, tail, hsplit, hstop⟩
      · simp at hnil
      · have hhead : ∀ e', (blanks ++ [c]).head? = some e' → s.step limit e' = .stop v := by
          intro e' he'
          have hfirst : e' = e := by
            cases blanks <;> simp_all
          exact hfirst ▸ hstop
        refine .inr ⟨read ++ blanks, c, more, 1, by rw [List.append_assoc], ?_,
          refusedAt_of_trailing hread hblanks hc hhead⟩
        rw [hbehind]
        rfl

end

end LinkPane.Json
