import LinkPane.Json.Value.Skipper
import LinkPane.Proofs.Json.Completeness
import LinkPane.Proofs.Json.Wellformed

/-!
# Every well-formed value is passed over

The skipper goes on through every well-formed value and comes out behind it, whatever brackets are open:

* `skipQuoteMachine`, `placeMachine` -- the inside of a quoted text and a number, by themselves;
* `SkipAwaits`, `SkipBehind` -- the states in front of a value and behind one;
* `Skips` -- what the skipper does with a segment of text;
* **`skips_of_wellformed`** -- it does so with every well-formed one, by induction on the derivation.
-/

namespace LinkPane.Json

/-! ## 1. Quoted texts -/

/-- The skipper of the inside of a quoted text, by itself. -/
def skipQuoteMachine : Machine SkipQuote Unit where
  step := SkipQuote.step
  finish _ := .error .endInText

theorem feed_skipQuote {q q' : SkipQuote} {c : Char} (h : q.step c = .next q') (rest : List Char) :
    skipQuoteMachine.feed q (c :: rest) = skipQuoteMachine.feed q' rest :=
  Machine.feed_cons _ h rest

/-- Behind every sign the skipper is where it was. -/
theorem feed_sign {form : List Char} (h : Sign form) : skipQuoteMachine.feed .plain form = some .plain := by
  have hbackslash : SkipQuote.step .plain '\\' = .next .escape := rfl
  cases h with
  | plain quote backslash control =>
    refine feed_skipQuote ?_ []
    simp [SkipQuote.step, quote, backslash, Char.not_lt.mpr control]
  | @short e c known =>
    have hshort : SkipQuote.step .escape e = .next .plain := by
      simp [SkipQuote.step, short_ne_u known, shortEscape?_eq_some_iff.mpr known]
    rw [feed_skipQuote hbackslash]
    exact feed_skipQuote hshort []
  | unit h =>
    obtain ⟨ha, hb, hc, hd⟩ := h
    obtain ⟨h1, h2, h3, h4⟩ := push_codeUnit (.digits ha hb hc hd)
    have hu : SkipQuote.step .escape 'u' = .next (.hex []) := rfl
    rw [feed_skipQuote hbackslash, feed_skipQuote hu]
    simp only [skipQuoteMachine, Machine.feed, SkipQuote.step, h1, h2, h3, h4]

theorem feed_signs {forms : List Char} (h : Signs forms) :
    skipQuoteMachine.feed .plain forms = some .plain := by
  induction h with
  | nil => rfl
  | cons head _ ih => rw [Machine.feed_append _ (feed_sign head), ih]

/-! ## 2. Numbers -/

/-- The skipper of a number, by itself. -/
def placeMachine : Machine Place Unit where
  step place c :=
    match place.step c with
    | .to place => .next place
    | .ended => .stop ()
    | .refused => .refuse .invalidNumber 1
  finish place := if place.isEnd then .ok () else .error .invalidNumber

/-- The part of a number that its first character is. -/
def Place.first (c : Char) : Place :=
  if c = '-' then .minus else .ofDigit c

section Numbers

variable {p q : Place} {c : Char} {digits : List Char}

theorem feed_to (h : p.step c = .to q) (rest : List Char) :
    placeMachine.feed p (c :: rest) = placeMachine.feed q rest :=
  Machine.feed_cons _ (by simp only [placeMachine, h]) rest

/-- Digits that leave the skipper in one place are all passed. -/
theorem feed_digits (stays : ∀ c, isDigit c = true → q.step c = .to q) (h : Decimals digits) :
    placeMachine.feed q digits = some q := by
  induction digits with
  | nil => rfl
  | cons c digits ih =>
    obtain ⟨hc, hdigits⟩ := List.forall_mem_cons.mp h
    rw [feed_to (stays c (isDigit_iff.mpr hc))]
    exact ih hdigits

/-- The same where the first digit brings the skipper there. -/
theorem feed_digits_cons (enters : ∀ c, isDigit c = true → p.step c = .to q)
    (stays : ∀ c, isDigit c = true → q.step c = .to q) (h : Decimals digits) (nonempty : digits ≠ []) :
    placeMachine.feed p digits = some q := by
  obtain ⟨c, digits, rfl⟩ := List.exists_cons_of_ne_nil nonempty
  obtain ⟨hc, hdigits⟩ := List.forall_mem_cons.mp h
  rw [feed_to (enters c (isDigit_iff.mpr hc))]
  exact feed_digits stays hdigits

theorem feed_place_whole {sign whole : List Char} {negative : Bool} (hs : Signed sign negative)
    (hw : Whole whole) :
    ∃ c rest place, sign ++ whole = c :: rest ∧ (c = '-' ∨ isDigit c = true) ∧
      (place = .zero ∨ place = .whole) ∧ placeMachine.feed (.first c) rest = some place := by
  cases hw with
  | zero =>
    cases hs with
    | absent => exact ⟨'0', [], .zero, rfl, .inr rfl, .inl rfl, rfl⟩
    | minus => exact ⟨'-', ['0'], .zero, rfl, .inl rfl, .inl rfl, rfl⟩
  | @digits c digits h lead =>
    obtain ⟨hc, hdigits⟩ := List.forall_mem_cons.mp h
    have hdigit := isDigit_iff.mpr hc
    have hplace : Place.ofDigit c = .whole := if_neg lead
    have hrun : placeMachine.feed .whole digits = some .whole :=
      feed_digits (fun c hc => by simp [Place.step, hc]) hdigits
    cases hs with
    | absent =>
      have hminus : c ≠ '-' := by
        rintro rfl
        exact absurd hdigit (by decide)
      refine ⟨c, digits, .whole, rfl, .inr hdigit, .inr rfl, ?_⟩
      rw [Place.first, if_neg hminus, hplace, hrun]
    | minus =>
      refine ⟨'-', c :: digits, .whole, rfl, .inl rfl, .inr rfl, ?_⟩
      have hstep : Place.step .minus c = .to .whole := by
        rw [← hplace]
        exact if_pos hdigit
      rw [Place.first, if_pos rfl, feed_to hstep, hrun]

theorem feed_place_fraction {point : List Char} (hf : Fraction point digits) (hp : p = .zero ∨ p = .whole) :
    ∃ q, (q = .zero ∨ q = .whole ∨ q = .fraction) ∧ placeMachine.feed p point = some q := by
  cases hf with
  | absent => exact ⟨p, hp.imp_right .inl, rfl⟩
  | digits h nonempty =>
    have hpoint : p.step '.' = .to .point := by
      rcases hp with rfl | rfl <;> rfl
    refine ⟨.fraction, .inr (.inr rfl), ?_⟩
    rw [feed_to hpoint]
    exact feed_digits_cons (fun c hc => by simp [Place.step, hc]) (fun c hc => by simp [Place.step, hc]) h
      nonempty

theorem feed_place_mark {mark : List Char} {exponent : Option Exponent} (he : ExponentForm mark exponent)
    (hp : p = .zero ∨ p = .whole ∨ p = .fraction) :
    ∃ q, q.isEnd = true ∧ placeMachine.feed p mark = some q := by
  cases he with
  | absent =>
    refine ⟨p, ?_, rfl⟩
    rcases hp with rfl | rfl | rfl <;> rfl
  | @digits mark sign power negative hm hs h nonempty =>
    have hmark : p.step mark = .to .mark := by
      rcases hp with rfl | rfl | rfl <;> rcases hm with rfl | rfl <;> rfl
    have hrun : ∀ p, p = .mark ∨ p = .markSign → placeMachine.feed p power = some .exponent := fun p hp =>
      feed_digits_cons (fun c hc => by rcases hp with rfl | rfl <;> simp [Place.step, hc])
        (fun c hc => by simp [Place.step, hc]) h nonempty
    refine ⟨.exponent, rfl, ?_⟩
    rw [feed_to hmark]
    cases hs with
    | absent => exact hrun .mark (.inl rfl)
    | plus => exact hrun .markSign (.inr rfl)
    | minus => exact hrun .markSign (.inr rfl)

/-- Every form of a number is passed over, and may end there. -/
theorem feed_place_number {form : List Char} {literal : Literal} (h : NumberForm form literal) :
    ∃ c rest place, form = c :: rest ∧ (c = '-' ∨ isDigit c = true) ∧
      placeMachine.feed (.first c) rest = some place ∧ place.isEnd = true := by
  obtain ⟨hs, hw, hf, he⟩ := h
  obtain ⟨c, rest, p, hsplit, hc, hp, hwhole⟩ := feed_place_whole hs hw
  obtain ⟨p', hp', hfraction⟩ := feed_place_fraction hf hp
  obtain ⟨place, hend, hmark⟩ := feed_place_mark he hp'
  refine ⟨c, _, place, by rw [← List.append_assoc, hsplit, List.cons_append], hc, ?_, hend⟩
  rw [Machine.feed_append _ hwhole, Machine.feed_append _ hfraction, hmark]

end Numbers

/-! ## 3. In front of a value and behind it -/

section

variable {brackets outer : List Bracket} {s : SkipState} {c : Char}

theorem skip_step {s' : SkipState} (h : s.step c = .next s') (rest : List Char) :
    skipMachine.feed s (c :: rest) = skipMachine.feed s' rest :=
  Machine.feed_cons _ h rest

/-- Where blanks are passed over, a row of them is. -/
theorem skip_blank {a : List Char} (ha : Blank a) (h : ∀ c, isBlank c = true → s.step c = .next s) :
    skipMachine.feed s a = some s := by
  induction a with
  | nil => rfl
  | cons c a ih =>
    obtain ⟨hc, ha⟩ := List.forall_mem_cons.mp ha
    rw [skip_step (h c (isBlank_iff.mpr hc))]
    exact ih ha

theorem skip_inText {q q' : SkipQuote} {form : List Char} (h : skipQuoteMachine.feed q form = some q') :
    skipMachine.feed (.inText q brackets) form = some (.inText q' brackets) :=
  Machine.feed_embed (fun q => SkipState.inText q brackets)
    (fun q c q' hq => by
      have hq : q.step c = .next q' := hq
      simp only [skipMachine, SkipState.step, hq]) h

theorem skip_inKey {q q' : SkipQuote} {form : List Char} (h : skipQuoteMachine.feed q form = some q') :
    skipMachine.feed (.inKey q brackets) form = some (.inKey q' brackets) :=
  Machine.feed_embed (fun q => SkipState.inKey q brackets)
    (fun q c q' hq => by
      have hq : q.step c = .next q' := hq
      simp only [skipMachine, SkipState.step, hq]) h

theorem skip_inNumber {p p' : Place} {form : List Char} (h : placeMachine.feed p form = some p') :
    skipMachine.feed (.inNumber p brackets) form = some (.inNumber p' brackets) :=
  Machine.feed_embed (fun p => SkipState.inNumber p brackets)
    (fun p c p' hp => by
      simp only [placeMachine] at hp
      split at hp
      · rename_i hstep
        cases hp
        simp only [skipMachine, SkipState.step, hstep]
      · cases hp
      · cases hp) h

/-- The state is in front of a value; `brackets` are open around that. -/
inductive SkipAwaits : List Bracket → SkipState → Prop
  | before {brackets : List Bracket} : SkipAwaits brackets (.beforeValue brackets)
  | opened {outer : List Bracket} : SkipAwaits (.list :: outer) (.opened .list outer)

theorem SkipAwaits.feed_blank (h : SkipAwaits brackets s) {a : List Char} (ha : Blank a) :
    skipMachine.feed s a = some s :=
  skip_blank ha fun c hc => by cases h <;> exact if_pos hc

theorem SkipAwaits.step_eq (h : SkipAwaits brackets s) (blank : isBlank c = false) (close : c ≠ ']') :
    s.step c = SkipState.begin brackets c := by
  cases h <;> simp [SkipState.step, blank, close]

/-- The state is behind a value. -/
inductive SkipBehind (brackets : List Bracket) : SkipState → Prop
  | after : SkipBehind brackets (.afterValue brackets)
  | number {place : Place} (hend : place.isEnd = true) : SkipBehind brackets (.inNumber place brackets)

theorem SkipBehind.step_eq (h : SkipBehind brackets s) (hc : Delimits c) :
    s.step c = SkipState.follow brackets c := by
  cases h with
  | after => rfl
  | number hend => simp only [SkipState.step, hc.ended hend]

/-- Inside brackets blanks may follow. -/
theorem SkipBehind.feed_blank (h : SkipBehind brackets s) (inside : brackets ≠ []) {b : List Char}
    (hb : Blank b) : ∃ s', skipMachine.feed s b = some s' ∧ SkipBehind brackets s' := by
  have hfollow : ∀ c, isBlank c = true → SkipState.follow brackets c = .next (.afterValue brackets) :=
    fun c hc => by
      rcases brackets with _ | ⟨_ | _, outer⟩
      · exact absurd rfl inside
      · exact if_pos hc
      · exact if_pos hc
  cases b with
  | nil => exact ⟨s, rfl, h⟩
  | cons c b =>
    obtain ⟨hc, hb⟩ := List.forall_mem_cons.mp hb
    have hblank := isBlank_iff.mpr hc
    have hstep : s.step c = .next (.afterValue brackets) := by
      rw [h.step_eq (.inl hblank), hfollow c hblank]
    refine ⟨.afterValue brackets, ?_, .after⟩
    rw [skip_step hstep]
    exact skip_blank hb hfollow

/-! ## 4. Every form is passed over -/

/-- What the skipper does with a segment of text, wherever it may stand: it goes on to behind a value, or to
    where a list or an object may be closed. -/
def Skips (text : List Char) : Segment → Prop
  | .value _ => ∀ brackets s, SkipAwaits brackets s →
      ∃ s', skipMachine.feed s text = some s' ∧ SkipBehind brackets s'
  | .items _ => ∀ outer s, SkipAwaits (.list :: outer) s →
      ∃ s', skipMachine.feed s text = some s' ∧ s'.step ']' = .next (.afterValue outer)
  | .members _ => ∀ outer s, s = .nextKey outer ∨ s = .opened .object outer →
      ∃ s', skipMachine.feed s text = some s' ∧ s'.step '}' = .next (.afterValue outer)

variable {parts : Parts} {items : List (List Char)} {members : List (List Char × List Char)}
  {a b d key form rest : List Char}

/-- A word is passed by its letters. -/
theorem skips_word {word : List Char} {first second : Char} {rest : List Char}
    (hword : word = first :: second :: rest) (blank : isBlank first = false) (close : first ≠ ']')
    (begins : ∀ brackets, SkipState.begin brackets first = .next (.inWord second rest brackets))
    (letters : ∀ brackets, skipMachine.feed (.inWord second rest brackets) (second :: rest) =
      some (.afterValue brackets)) :
    Skips word (.value parts) := by
  intro brackets s hs
  refine ⟨.afterValue brackets, ?_, .after⟩
  rw [hword, skip_step ((hs.step_eq blank close).trans (begins brackets))]
  exact letters brackets

/-- A number begins like nothing else. -/
theorem skip_begin_number (brackets : List Bracket) (h : c = '-' ∨ isDigit c = true) :
    SkipState.begin brackets c = .next (.inNumber (.first c) brackets) := by
  have hne : ∀ d, d ≠ '-' → isDigit d = false → c ≠ d := by
    rintro d hminus hdigit rfl
    rcases h with h | h
    · exact hminus h
    · exact absurd (h.symm.trans hdigit) (by decide)
  simp only [SkipState.begin, hne 'n' (by decide) rfl, hne 't' (by decide) rfl, hne 'f' (by decide) rfl,
    hne '"' (by decide) rfl, hne '[' (by decide) rfl, hne '{' (by decide) rfl, if_false, Place.first]
  by_cases hc : c = '-'
  · rw [if_pos hc, if_pos hc]
  · rw [if_neg hc, if_neg hc, if_pos (h.resolve_left hc)]

theorem skips_number {literal : Literal} (h : NumberForm form literal) : Skips form (.value parts) := by
  intro brackets s hs
  obtain ⟨c, rest, place, rfl, hc, hfeed, hend⟩ := feed_place_number h
  obtain ⟨hblank, hclose, -⟩ := begin_number 0 [] hc
  refine ⟨.inNumber place brackets, ?_, .number hend⟩
  rw [skip_step ((hs.step_eq hblank hclose).trans (skip_begin_number brackets hc))]
  exact skip_inNumber hfeed

theorem skips_text (h : Quoted form) : Skips form (.value parts) := by
  intro brackets s hs
  cases h with
  | signs h =>
    have hbegin : s.step '"' = .next (.inText .plain brackets) := hs.step_eq rfl (by decide)
    refine ⟨.afterValue brackets, ?_, .after⟩
    rw [skip_step hbegin, Machine.feed_append _ (skip_inText (feed_signs h))]
    rfl

/-- A bracket is opened, and closed behind its inside. -/
theorem skips_bracket {opening close : Char} {inside : List Char} {bracket : Bracket}
    (blank : isBlank opening = false) (other : opening ≠ ']')
    (begins : ∀ brackets, SkipState.begin brackets opening = .next (.opened bracket brackets))
    (h : ∀ outer, ∃ s', skipMachine.feed (.opened bracket outer) inside = some s' ∧
      s'.step close = .next (.afterValue outer)) :
    Skips (opening :: (inside ++ [close])) (.value parts) := by
  intro brackets s hs
  obtain ⟨s', hinside, hclose⟩ := h brackets
  refine ⟨.afterValue brackets, ?_, .after⟩
  rw [skip_step ((hs.step_eq blank other).trans (begins brackets)), Machine.feed_append _ hinside,
    skip_step hclose]
  rfl

/-- A value with blanks around it, inside brackets. -/
theorem Skips.padded (ha : Blank a) (h : Skips form (.value parts)) (hb : Blank b) (hs : SkipAwaits brackets s)
    (inside : brackets ≠ []) :
    ∃ s', skipMachine.feed s (a ++ (form ++ b)) = some s' ∧ SkipBehind brackets s' := by
  obtain ⟨s₁, h₁, hbehind⟩ := h brackets s hs
  obtain ⟨s₂, h₂, hbehind⟩ := hbehind.feed_blank inside hb
  refine ⟨s₂, ?_, hbehind⟩
  rw [Machine.feed_append _ (hs.feed_blank ha), Machine.feed_append _ h₁, h₂]

theorem skips_lastItem (ha : Blank a) (h : Skips form (.value parts)) (hb : Blank b) :
    Skips (a ++ (form ++ b)) (.items items) := by
  intro outer s hs
  obtain ⟨s', hfeed, hbehind⟩ := h.padded ha hb hs (by simp)
  exact ⟨s', hfeed, hbehind.step_eq (.inr (.inr (.inl rfl)))⟩

theorem skips_moreItems (ha : Blank a) (h : Skips form (.value parts)) (hb : Blank b)
    (tail : Skips rest (.items items)) :
    Skips (a ++ (form ++ (b ++ ',' :: rest))) (.items (form :: items)) := by
  intro outer s hs
  obtain ⟨s₁, hfeed, hbehind⟩ := h.padded ha hb hs (by simp)
  have hcomma : s₁.step ',' = .next (.beforeValue (.list :: outer)) := hbehind.step_eq (.inr (.inl rfl))
  obtain ⟨s₂, htail, hclose⟩ := tail outer _ .before
  refine ⟨s₂, ?_, hclose⟩
  rw [← List.append_assoc form, ← List.append_assoc a, Machine.feed_append _ hfeed, skip_step hcomma, htail]

/-- A key, and all up to its value. -/
theorem skip_key (ha : Blank a) (hk : Quoted key) (hb : Blank b)
    (hs : s = .nextKey outer ∨ s = .opened .object outer) (rest : List Char) :
    skipMachine.feed s (a ++ (key ++ (b ++ ':' :: rest))) =
      skipMachine.feed (.beforeValue (.object :: outer)) rest := by
  have hblank : skipMachine.feed s a = some s := by
    rcases hs with rfl | rfl <;> exact skip_blank ha fun c hc => if_pos hc
  have hquote : s.step '"' = .next (.inKey .plain outer) := by
    rcases hs with rfl | rfl <;> rfl
  have hkey : skipMachine.feed s key = some (.afterKey outer) := by
    cases hk with
    | signs h =>
      rw [skip_step hquote, Machine.feed_append _ (skip_inKey (feed_signs h))]
      rfl
  have hbehind : skipMachine.feed (.afterKey outer) b = some (.afterKey outer) :=
    skip_blank hb fun c hc => if_pos hc
  rw [Machine.feed_append _ hblank, Machine.feed_append _ hkey, Machine.feed_append _ hbehind]
  exact skip_step rfl rest

theorem skips_lastMember {c : List Char} (ha : Blank a) (hk : Quoted key) (hb : Blank b) (hc : Blank c)
    (h : Skips form (.value parts)) (hd : Blank d) :
    Skips (a ++ (key ++ (b ++ ':' :: (c ++ (form ++ d))))) (.members members) := by
  intro outer s hs
  have hawaits : SkipAwaits (.object :: outer) _ := .before
  obtain ⟨s', hfeed, hbehind⟩ := h.padded hc hd hawaits (by simp)
  exact ⟨s', by rw [skip_key ha hk hb hs, hfeed], hbehind.step_eq (.inr (.inr (.inr rfl)))⟩

theorem skips_moreMembers {c : List Char} (ha : Blank a) (hk : Quoted key) (hb : Blank b) (hc : Blank c)
    (h : Skips form (.value parts)) (hd : Blank d) (tail : Skips rest (.members members)) :
    Skips (a ++ (key ++ (b ++ ':' :: (c ++ (form ++ (d ++ ',' :: rest))))))
      (.members ((key, form) :: members)) := by
  intro outer s hs
  have hawaits : SkipAwaits (.object :: outer) _ := .before
  obtain ⟨s₁, hfeed, hbehind⟩ := h.padded hc hd hawaits (by simp)
  have hcomma : s₁.step ',' = .next (.nextKey outer) := hbehind.step_eq (.inr (.inl rfl))
  obtain ⟨s₂, htail, hclose⟩ := tail outer _ (.inl rfl)
  refine ⟨s₂, ?_, hclose⟩
  rw [skip_key ha hk hb hs, ← List.append_assoc form, ← List.append_assoc c, Machine.feed_append _ hfeed,
    skip_step hcomma, htail]

/-- **Every well-formed text is passed over**: a derivation is a run of the skipper. -/
theorem skips_of_wellformed {text : List Char} {segment : Segment} (h : Wellformed text segment) :
    Skips text segment := by
  induction h with
  | null => exact skips_word rfl rfl (by decide) (fun _ => rfl) fun _ => rfl
  | yes => exact skips_word rfl rfl (by decide) (fun _ => rfl) fun _ => rfl
  | no => exact skips_word rfl rfl (by decide) (fun _ => rfl) fun _ => rfl
  | number h => exact skips_number h
  | text h => exact skips_text h
  | emptyList ha =>
    exact skips_bracket rfl (by decide) (fun _ => rfl) fun outer =>
      ⟨.opened .list outer, SkipAwaits.opened.feed_blank ha, rfl⟩
  | list _ ih => exact skips_bracket rfl (by decide) (fun _ => rfl) fun outer => ih outer _ .opened
  | emptyObject ha =>
    exact skips_bracket rfl (by decide) (fun _ => rfl) fun outer =>
      ⟨.opened .object outer, skip_blank ha fun c hc => if_pos hc, rfl⟩
  | object _ ih => exact skips_bracket rfl (by decide) (fun _ => rfl) fun outer => ih outer _ (.inr rfl)
  | lastItem ha _ hb ih => exact skips_lastItem ha ih hb
  | moreItems ha _ hb _ ih iht => exact skips_moreItems ha ih hb iht
  | lastMember ha hk hb hc _ hd ih => exact skips_lastMember ha hk hb hc ih hd
  | moreMembers ha hk hb hc _ hd _ ih iht => exact skips_moreMembers ha hk hb hc ih hd iht

end

end LinkPane.Json
