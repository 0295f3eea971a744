import LinkPane.Proofs.Json.Numbers
import LinkPane.Proofs.Json.Quoted

/-!
# Every text of the grammar is read

A derivation of the grammar yields a run of the reader: fed a form of a value, the machine goes on through
all of it and comes out behind that value, whatever brackets are open around it.

* `Awaits`, `Behind` -- the states in front of a value and behind one;
* `Reads` -- what the machine does with a piece of text;
* **`reads_of_form`** -- it does so with every form, by induction on the derivation;
* **`readAll_of_isText`** -- a whole text of a value is read as that value.
-/

namespace LinkPane.Json

/-! ## 1. Parts of the machine -/

/-- A machine that goes on wherever another does is fed whatever that one is fed. -/
theorem Machine.feed_embed {σ τ α β : Type} {m : Machine σ α} {n : Machine τ β} (g : σ → τ)
    (hg : ∀ s c s', m.step s c = .next s' → n.step (g s) c = .next (g s')) {s s' : σ} {text : List Char}
    (h : m.feed s text = some s') : n.feed (g s) text = some (g s') := by
  induction text generalizing s with
  | nil =>
    rw [feed_nil, Option.some.injEq] at h
    rw [feed_nil, h]
  | cons c text ih =>
    rw [feed] at h
    split at h
    · rename_i next hnext
      rw [feed_cons n (hg s c next hnext)]
      exact ih h
    · cases h

section

variable {limit room : Nat} {frames outer : List Frame} {s : State} {v : Value} {c : Char}

theorem feed_inText {q q' : Quote} {form : List Char} (h : quoteMachine.feed q form = some q') :
    (valueMachine limit).feed (.inText q frames) form = some (.inText q' frames) :=
  Machine.feed_embed (fun q => State.inText q frames)
    (fun q c q' hq => by
      have hq : q.step c = .next q' := hq
      simp only [valueMachine, State.step, hq]) h

theorem feed_inKey {members : List (String × Value)} {q q' : Quote} {form : List Char}
    (h : quoteMachine.feed q form = some q') :
    (valueMachine limit).feed (.inKey q members frames) form = some (.inKey q' members frames) :=
  Machine.feed_embed (fun q => State.inKey q members frames)
    (fun q c q' hq => by
      have hq : q.step c = .next q' := hq
      simp only [valueMachine, State.step, hq]) h

theorem feed_inNumber {d d' : Digits} {form : List Char} (h : digitsMachine.feed d form = some d') :
    (valueMachine limit).feed (.inNumber d frames) form = some (.inNumber d' frames) :=
  Machine.feed_embed (fun d => State.inNumber d frames)
    (fun d c d' hd => by
      have hd : d.step c = .next d' := hd
      simp only [valueMachine, State.step, hd]) h

theorem isBlank_iff : isBlank c = true ↔ c = ' ' ∨ c = '\t' ∨ c = '\n' ∨ c = '\r' := by
  simp [isBlank, or_assoc]

theorem feed_step {s' : State} (h : s.step limit c = .next s') (rest : List Char) :
    (valueMachine limit).feed s (c :: rest) = (valueMachine limit).feed s' rest :=
  Machine.feed_cons _ h rest

/-- Where blanks are passed over, a row of them is. -/
theorem feed_blank {a : List Char} (ha : Blank a)
    (h : ∀ c, isBlank c = true → s.step limit c = .next s) : (valueMachine limit).feed s a = some s := by
  induction a with
  | nil => rfl
  | cons c a ih =>
    obtain ⟨hc, ha⟩ := List.forall_mem_cons.mp ha
    rw [feed_step (h c (isBlank_iff.mpr hc))]
    exact ih ha

/-! ## 2. In front of a value and behind it -/

/-- The state is in front of a value; `frames` are open around that. -/
inductive Awaits : List Frame → State → Prop
  | before {frames : List Frame} : Awaits frames (.beforeValue frames)
  | first {outer : List Frame} : Awaits (.list [] :: outer) (.firstItem outer)
  | next {items : List Value} {outer : List Frame} : Awaits (.list items :: outer) (.nextItem items outer)

theorem Awaits.feed_blank (h : Awaits frames s) {a : List Char} (ha : Blank a) :
    (valueMachine limit).feed s a = some s :=
  Json.feed_blank ha fun c hc => by cases h <;> exact if_pos hc

theorem Awaits.step_eq (h : Awaits frames s) (blank : isBlank c = false) (close : c ≠ ']') :
    s.step limit c = State.begin limit frames c := by
  cases h <;> simp [State.step, blank, close]

/-- The state is behind the value `v`. A number ends only with the character behind it. -/
inductive Behind (v : Value) (frames : List Frame) : State → Prop
  | after : Behind v frames (.afterValue v frames)
  | number {d : Digits} {n : Numeral} (hv : v = .number n) (hend : d.place.isEnd = true)
      (hn : d.finish = .ok n) : Behind v frames (.inNumber d frames)

/-- What may stand behind a value. -/
def Delimits (c : Char) : Prop :=
  isBlank c = true ∨ c = ',' ∨ c = ']' ∨ c = '}'

/-- No delimiter belongs to a number. -/
theorem Delimits.ended {place : Place} (hc : Delimits c) (hend : place.isEnd = true) :
    place.step c = .ended := by
  unfold Delimits at hc
  rw [isBlank_iff] at hc
  rcases hc with (rfl | rfl | rfl | rfl) | rfl | rfl | rfl <;> cases place <;> first | rfl | cases hend

theorem Behind.step_eq (h : Behind v frames s) (hc : Delimits c) :
    s.step limit c = State.follow v frames c := by
  cases h with
  | after => rfl
  | number hv hend hn => simp only [State.step, Digits.step, hc.ended hend, hn, hv]

/-- Inside brackets blanks may follow. -/
theorem Behind.feed_blank (limit : Nat) (h : Behind v frames s) (inside : frames ≠ []) {b : List Char}
    (hb : Blank b) :
    ∃ s', (valueMachine limit).feed s b = some s' ∧ Behind v frames s' := by
  have hfollow : ∀ c, isBlank c = true → State.follow v frames c = .next (.afterValue v frames) :=
    fun c hc => by
      rcases frames with _ | ⟨_ | _, outer⟩
      · exact absurd rfl inside
      · exact if_pos hc
      · exact if_pos hc
  cases b with
  | nil => exact ⟨s, rfl, h⟩
  | cons c b =>
    obtain ⟨hc, hb⟩ := List.forall_mem_cons.mp hb
    have hblank := isBlank_iff.mpr hc
    have hstep : s.step limit c = .next (.afterValue v frames) := by
      rw [h.step_eq (.inl hblank), hfollow c hblank]
    refine ⟨.afterValue v frames, ?_, .after⟩
    rw [feed_step hstep]
    exact Json.feed_blank hb hfollow

/-! ## 3. Every form is read -/

/-- What the machine does with a piece of text, wherever it may stand with `room` brackets still to open: it
    goes on to behind a value, to where a list may be closed with all its items, or an object with all its
    members. -/
def Reads (limit room : Nat) (text : List Char) : Part → Prop
  | .value v => ∀ frames s, Awaits frames s → frames.length + room ≤ limit →
      ∃ s', (valueMachine limit).feed s text = some s' ∧ Behind v frames s'
  | .items vs => ∀ items outer s, Awaits (.list items :: outer) s → outer.length + 1 + room ≤ limit →
      ∃ s', (valueMachine limit).feed s text = some s' ∧
        s'.step limit ']' = .next (.afterValue (.list (items.reverse ++ vs)) outer)
  | .members ms => ∀ members outer s, s = .nextKey members outer ∨ (s = .firstKey outer ∧ members = []) →
      outer.length + 1 + room ≤ limit →
      ∃ s', (valueMachine limit).feed s text = some s' ∧
        s'.step limit '}' = .next (.afterValue (.object (members.reverse ++ ms)) outer)

/-- No other value begins like a number. -/
theorem begin_number (limit : Nat) (frames : List Frame) (h : c = '-' ∨ isDigit c = true) :
    isBlank c = false ∧ c ≠ ']' ∧ State.begin limit frames c = .next (.inNumber (.first c) frames) := by
  have hne : ∀ d, d ≠ '-' → isDigit d = false → c ≠ d := by
    rintro d hminus hdigit rfl
    rcases h with h | h
    · exact hminus h
    · exact absurd (h.symm.trans hdigit) (by decide)
  have hblank : isBlank c = false := by
    simp [isBlank, hne ' ' (by decide) rfl, hne '\t' (by decide) rfl, hne '\n' (by decide) rfl,
      hne '\r' (by decide) rfl]
  refine ⟨hblank, hne ']' (by decide) rfl, ?_⟩
  simp only [State.begin, hne 'n' (by decide) rfl, hne 't' (by decide) rfl, hne 'f' (by decide) rfl,
    hne '"' (by decide) rfl, hne '[' (by decide) rfl, hne '{' (by decide) rfl, h, if_true, if_false]

/-- A word is read by its letters. -/
theorem reads_word {word : List Char} {first second : Char} {rest : List Char} {value : Value}
    (hword : word = first :: second :: rest) (blank : isBlank first = false) (close : first ≠ ']')
    (begins : ∀ frames, State.begin limit frames first = .next (.inWord second rest value frames))
    (letters : ∀ frames, (valueMachine limit).feed (.inWord second rest value frames) (second :: rest) =
      some (.afterValue value frames)) :
    Reads limit room word (.value value) := by
  intro frames s hs _
  refine ⟨.afterValue value frames, ?_, .after⟩
  rw [hword, feed_step ((hs.step_eq blank close).trans (begins frames))]
  exact letters frames

theorem reads_number {form : List Char} {literal : Literal} {n : Numeral} (h : NumberForm form literal)
    (range : literal.numeral? = some n) : Reads limit room form (.value (.number n)) := by
  intro frames s hs _
  -- a literal in range does not overflow, so no digit of it is refused early
  obtain ⟨c, rest, d, rfl, hc, hfeed, hd, hend⟩ := feed_number h (Literal.overflows_of_numeral? range)
  have hfinish : d.finish = .ok n := by simp only [Digits.finish, hd, range]
  obtain ⟨hblank, hclose, hbegin⟩ := begin_number limit frames hc
  refine ⟨.inNumber d frames, ?_, .number rfl hend hfinish⟩
  rw [feed_step ((hs.step_eq hblank hclose).trans hbegin)]
  exact feed_inNumber hfeed

theorem reads_text {form text : List Char} (h : Spelled form text) :
    Reads limit room ('"' :: (form ++ ['"'])) (.value (.text (String.ofList text))) := by
  intro frames s hs _
  have hbegin : s.step limit '"' = .next (.inText .empty frames) := hs.step_eq rfl (by decide)
  have hinside : (valueMachine limit).feed (.inText .empty frames) form =
      some (.inText ⟨.plain, text.reverse⟩ frames) := feed_inText (feed_spelled_empty h)
  refine ⟨.afterValue (.text (String.ofList text)) frames, ?_, .after⟩
  rw [feed_step hbegin]
  refine (Machine.feed_append _ hinside ['"']).trans (feed_step ?_ [])
  simp [State.step, Quote.step, Quote.text]

/-- A bracket is opened where there is room for one more, and closed behind its inside. -/
theorem reads_bracket {opening close : Char} {inside : List Char} {first : List Frame → State}
    (blank : isBlank opening = false) (other : opening ≠ ']')
    (begins : ∀ frames, State.begin limit frames opening = State.enter limit frames (first frames))
    (h : ∀ frames, frames.length + 1 + room ≤ limit → ∃ s',
      (valueMachine limit).feed (first frames) inside = some s' ∧
        s'.step limit close = .next (.afterValue v frames)) :
    Reads limit (room + 1) (opening :: (inside ++ [close])) (.value v) := by
  intro frames s hs hroom
  obtain ⟨s', hinside, hclose⟩ := h frames (by omega)
  have henter : State.enter limit frames (first frames) = .next (first frames) := if_pos (by omega)
  have hbegin : s.step limit opening = .next (first frames) := by
    rw [hs.step_eq blank other, begins, henter]
  refine ⟨.afterValue v frames, ?_, .after⟩
  rw [feed_step hbegin, Machine.feed_append _ hinside, feed_step hclose]
  rfl

theorem reads_emptyList {a : List Char} (ha : Blank a) :
    Reads limit (room + 1) ('[' :: (a ++ [']'])) (.value (.list [])) :=
  reads_bracket rfl (by decide) (fun _ => rfl) fun frames _ =>
    ⟨.firstItem frames, Awaits.first.feed_blank ha, rfl⟩

theorem reads_list {inside : List Char} {items : List Value} (h : Reads limit room inside (.items items)) :
    Reads limit (room + 1) ('[' :: (inside ++ [']'])) (.value (.list items)) :=
  reads_bracket rfl (by decide) (fun _ => rfl) fun frames hroom => h [] frames (.firstItem frames) .first hroom

theorem reads_emptyObject {a : List Char} (ha : Blank a) :
    Reads limit (room + 1) ('{' :: (a ++ ['}'])) (.value (.object [])) :=
  reads_bracket rfl (by decide) (fun _ => rfl) fun frames _ =>
    ⟨.firstKey frames, feed_blank ha fun _ hc => if_pos hc, rfl⟩

theorem reads_object {inside : List Char} {members : List (String × Value)}
    (h : Reads limit room inside (.members members)) :
    Reads limit (room + 1) ('{' :: (inside ++ ['}'])) (.value (.object members)) :=
  reads_bracket rfl (by decide) (fun _ => rfl) fun frames hroom =>
    h [] frames (.firstKey frames) (.inr ⟨rfl, rfl⟩) hroom

/-- A value with blanks around it, inside brackets. -/
theorem Reads.padded {a form b : List Char} (ha : Blank a) (h : Reads limit room form (.value v))
    (hb : Blank b) (hs : Awaits frames s) (inside : frames ≠ []) (hroom : frames.length + room ≤ limit) :
    ∃ s', (valueMachine limit).feed s (a ++ (form ++ b)) = some s' ∧ Behind v frames s' := by
  obtain ⟨s₁, h₁, hbehind⟩ := h frames s hs hroom
  obtain ⟨s₂, h₂, hbehind⟩ := hbehind.feed_blank limit inside hb
  refine ⟨s₂, ?_, hbehind⟩
  rw [Machine.feed_append _ (hs.feed_blank ha), Machine.feed_append _ h₁, h₂]

theorem reads_lastItem {a form b : List Char} (ha : Blank a) (h : Reads limit room form (.value v))
    (hb : Blank b) : Reads limit room (a ++ (form ++ b)) (.items [v]) := by
  intro items outer s hs hroom
  obtain ⟨s', hfeed, hbehind⟩ := h.padded ha hb hs (by simp) hroom
  refine ⟨s', hfeed, ?_⟩
  rw [hbehind.step_eq (.inr (.inr (.inl rfl)))]
  simp [State.follow, isBlank]

theorem reads_moreItems {a form b rest : List Char} {items : List Value} (ha : Blank a)
    (h : Reads limit room form (.value v)) (hb : Blank b) (tail : Reads limit room rest (.items items)) :
    Reads limit room (a ++ (form ++ (b ++ ',' :: rest))) (.items (v :: items)) := by
  intro before outer s hs hroom
  obtain ⟨s₁, hfeed, hbehind⟩ := h.padded ha hb hs (by simp) hroom
  have hcomma : s₁.step limit ',' = .next (.nextItem (v :: before) outer) :=
    hbehind.step_eq (.inr (.inl rfl))
  obtain ⟨s₂, htail, hclose⟩ := tail (v :: before) outer _ .next hroom
  refine ⟨s₂, ?_, ?_⟩
  · rw [← List.append_assoc form, ← List.append_assoc a, Machine.feed_append _ hfeed,
      feed_step hcomma, htail]
  · rw [hclose, List.reverse_cons, List.append_assoc]
    rfl

/-- A key, and all up to its value. -/
theorem feed_key {a key b name : List Char} (ha : Blank a) (hk : Spelled key name) (hb : Blank b)
    {members : List (String × Value)}
    (hs : s = .nextKey members outer ∨ (s = .firstKey outer ∧ members = [])) (rest : List Char) :
    (valueMachine limit).feed s (a ++ '"' :: (key ++ '"' :: (b ++ ':' :: rest))) =
      (valueMachine limit).feed (.beforeValue (.object members (String.ofList name) :: outer)) rest := by
  have hblank : (valueMachine limit).feed s a = some s := by
    rcases hs with rfl | ⟨rfl, -⟩ <;> exact feed_blank ha fun c hc => if_pos hc
  have hquote : s.step limit '"' = .next (.inKey .empty members outer) := by
    rcases hs with rfl | ⟨rfl, rfl⟩ <;> rfl
  have hinside : (valueMachine limit).feed (.inKey .empty members outer) key =
      some (.inKey ⟨.plain, name.reverse⟩ members outer) := feed_inKey (feed_spelled_empty hk)
  have hclose : State.step limit (.inKey ⟨.plain, name.reverse⟩ members outer) '"' =
      .next (.afterKey members (String.ofList name) outer) := by
    simp [State.step, Quote.step, Quote.text]
  have hbehind : (valueMachine limit).feed (.afterKey members (String.ofList name) outer) b =
      some (.afterKey members (String.ofList name) outer) := feed_blank hb fun c hc => if_pos hc
  rw [Machine.feed_append _ hblank, feed_step hquote,
    Machine.feed_append (valueMachine limit) hinside, feed_step hclose,
    Machine.feed_append _ hbehind]
  exact feed_step rfl rest

theorem reads_lastMember {a key b c form d name : List Char} (ha : Blank a) (hk : Spelled key name)
    (hb : Blank b) (hc : Blank c) (h : Reads limit room form (.value v)) (hd : Blank d) :
    Reads limit room (a ++ '"' :: (key ++ '"' :: (b ++ ':' :: (c ++ (form ++ d)))))
      (.members [(String.ofList name, v)]) := by
  intro members outer s hs hroom
  have hawaits : Awaits (.object members (String.ofList name) :: outer) _ := .before
  obtain ⟨s', hfeed, hbehind⟩ := h.padded hc hd hawaits (by simp) hroom
  refine ⟨s', by rw [feed_key ha hk hb hs, hfeed], ?_⟩
  rw [hbehind.step_eq (.inr (.inr (.inr rfl)))]
  simp [State.follow, isBlank]

theorem reads_moreMembers {a key b c form d rest name : List Char} {members : List (String × Value)}
    (ha : Blank a) (hk : Spelled key name) (hb : Blank b) (hc : Blank c)
    (h : Reads limit room form (.value v)) (hd : Blank d) (tail : Reads limit room rest (.members members)) :
    Reads limit room (a ++ '"' :: (key ++ '"' :: (b ++ ':' :: (c ++ (form ++ (d ++ ',' :: rest))))))
      (.members ((String.ofList name, v) :: members)) := by
  intro before outer s hs hroom
  have hawaits : Awaits (.object before (String.ofList name) :: outer) _ := .before
  obtain ⟨s₁, hfeed, hbehind⟩ := h.padded hc hd hawaits (by simp) hroom
  have hcomma : s₁.step limit ',' = .next (.nextKey ((String.ofList name, v) :: before) outer) :=
    hbehind.step_eq (.inr (.inl rfl))
  obtain ⟨s₂, htail, hclose⟩ := tail ((String.ofList name, v) :: before) outer _ (.inl rfl) hroom
  refine ⟨s₂, ?_, ?_⟩
  · rw [feed_key ha hk hb hs, ← List.append_assoc form, ← List.append_assoc c, Machine.feed_append _ hfeed,
      feed_step hcomma, htail]
  · rw [hclose, List.reverse_cons, List.append_assoc]
    rfl

/-- **Every form is read**: a derivation is a run of the machine. -/
theorem reads_of_form {text : List Char} {part : Part} (h : Form room text part) :
    Reads limit room text part := by
  induction h with
  | null => exact reads_word rfl rfl (by decide) (fun _ => rfl) fun _ => rfl
  | yes => exact reads_word rfl rfl (by decide) (fun _ => rfl) fun _ => rfl
  | no => exact reads_word rfl rfl (by decide) (fun _ => rfl) fun _ => rfl
  | number h range => exact reads_number h range
  | text h => exact reads_text h
  | emptyList ha => exact reads_emptyList ha
  | list _ ih => exact reads_list ih
  | emptyObject ha => exact reads_emptyObject ha
  | object _ ih => exact reads_object ih
  | lastItem ha _ hb ih => exact reads_lastItem ha ih hb
  | moreItems ha _ hb _ ih iht => exact reads_moreItems ha ih hb iht
  | lastMember ha hk hb hc _ hd ih => exact reads_lastMember ha hk hb hc ih hd
  | moreMembers ha hk hb hc _ hd _ ih iht => exact reads_moreMembers ha hk hb hc ih hd iht

/-! ## 4. Whole texts -/

/-- Where no bracket is open, the reader stops behind the value. -/
theorem Behind.run_eq (h : Behind v [] s) {b : List Char} (hb : Blank b) :
    (valueMachine limit).run s b = .ok (v, b) := by
  cases b with
  | nil =>
    cases h with
    | after => rfl
    | number hv hend hn => simp [valueMachine, Machine.run, State.finish, hend, hn, State.finishAfter, hv]
  | cons c b =>
    have hblank := isBlank_iff.mpr (hb c List.mem_cons_self)
    have hstop : s.step limit c = .stop v := h.step_eq (.inl hblank)
    simp only [Machine.run, valueMachine, hstop]

theorem dropBlank_of_blank {b : List Char} (hb : Blank b) : dropBlank b = [] := by
  rw [← List.append_nil b]
  exact List.dropWhile_append_of_pos fun c hc => isBlank_iff.mpr (hb c hc)

/-- Blanks are passed up to the first character that is none. -/
theorem dropBlank_append {blanks : List Char} (hb : Blank blanks) (hc : isBlank c = false)
    (rest : List Char) : dropBlank (blanks ++ c :: rest) = c :: rest := by
  rw [dropBlank, List.dropWhile_append_of_pos fun e he => isBlank_iff.mpr (hb e he), List.dropWhile_cons, hc]
  rfl

/-- **A whole text of a value is read as that value.** -/
theorem readAll_of_isText {text : List Char} (h : IsText limit text v) :
    readAll (readValue limit) text = .ok v := by
  obtain ⟨a, form, b, rfl, ha, hform, hb⟩ := h
  have hreads : Reads limit limit form (.value v) := reads_of_form hform
  obtain ⟨s, hfeed, hbehind⟩ := hreads [] _ .before (by simp)
  have hrun : readValue limit (a ++ (form ++ b)) = .ok (v, b) := by
    rw [readValue, Machine.run_append _ (Awaits.before.feed_blank ha), Machine.run_append _ hfeed,
      hbehind.run_eq hb]
  simp only [readAll, hrun, dropBlank_of_blank hb]

end

end LinkPane.Json
