import LinkPane.Json.Value.Reader
import LinkPane.Proofs.Json.Grammar

/-!
# Reading quoted texts

Between quotes the reader goes on through exactly the texts of the grammar and what begins them.

* `hexValue?_eq_some_iff` -- digits and their values;
* `push_codeUnit`, `codeUnit_of_push` -- the four characters behind `\u`;
* `quoteMachine` -- the reader of the inside of a quoted text, by itself;
* **`feed_spelled`** -- it reads every form of a text;
* `Quote.Reads` -- the invariant: how far the grammar has come where the reader is;
* **`Quote.reads_of_next`, `Quote.spelled_of_stop`** -- every character it reads keeps the invariant, and where
  it meets the closing quote it has read a form of its text.
-/

namespace LinkPane.Json

/-! ## 1. Hexadecimal digits -/

theorem hexValue?_eq_some_iff {c : Char} {n : Nat} : hexValue? c = some n ↔ HexDigit c n := by
  unfold hexValue?
  constructor
  · intro h
    split at h
    · rename_i hc
      obtain rfl := Option.some.inj h
      exact .decimal hc.1 hc.2
    · split at h
      · rename_i hc
        obtain rfl := Option.some.inj h
        exact .lower hc.1 hc.2
      · split at h
        · rename_i hc
          obtain rfl := Option.some.inj h
          exact .upper hc.1 hc.2
        · cases h
  · -- no two of the three ranges meet
    intro h
    cases h with
    | decimal low high => rw [if_pos ⟨low, high⟩]
    | lower low high =>
      have hd : ¬ ('0' ≤ c ∧ c ≤ '9') := fun h => absurd (Char.le_trans low h.2) (by decide)
      rw [if_neg hd, if_pos ⟨low, high⟩]
    | upper low high =>
      have hd : ¬ ('0' ≤ c ∧ c ≤ '9') := fun h => absurd (Char.le_trans low h.2) (by decide)
      have hl : ¬ ('a' ≤ c ∧ c ≤ 'f') := fun h => absurd (Char.le_trans h.1 high) (by decide)
      rw [if_neg hd, if_neg hl, if_pos ⟨low, high⟩]

/-- A digit takes one octet. -/
theorem HexDigit.utf8Size_eq {c : Char} {n : Nat} (h : HexDigit c n) : c.utf8Size = 1 := by
  have hle : c ≤ '\x7f' := by
    cases h with
    | decimal _ high => exact Char.le_trans high (by decide)
    | lower _ high => exact Char.le_trans high (by decide)
    | upper _ high => exact Char.le_trans high (by decide)
  exact Char.utf8Size_eq_one_iff.mpr hle

/-- Digits that have a value have one each. -/
theorem hexDigits_of_foldlM {digits : List Char} {n v : Nat}
    (h : digits.foldlM (fun n c => (hexValue? c).map (16 * n + ·)) n = some v) :
    ∀ c ∈ digits, ∃ k, HexDigit c k := by
  induction digits generalizing n with
  | nil => exact fun _ h => absurd h List.not_mem_nil
  | cons c digits ih =>
    rw [List.foldlM_cons] at h
    cases hc : hexValue? c with
    | none => rw [hc] at h; cases h
    | some k =>
      rw [hc] at h
      exact List.forall_mem_cons.mpr ⟨⟨k, hexValue?_eq_some_iff.mp hc⟩, ih h⟩

theorem size_eq_length_of_hexDigits {digits : List Char} (h : ∀ c ∈ digits, ∃ k, HexDigit c k) :
    Text.size digits = digits.length := by
  induction digits with
  | nil => rfl
  | cons c digits ih =>
    obtain ⟨⟨k, hk⟩, hrest⟩ := List.forall_mem_cons.mp h
    rw [Text.size_cons, hk.utf8Size_eq, ih hrest, List.length_cons, Nat.add_comm]

/-! ## 2. Code units -/

/-- Four digits are a code unit as soon as the fourth is there. -/
theorem push_codeUnit {a b c d : Char} {n : Nat} (h : CodeUnit [a, b, c, d] n) :
    Hex.push [] a = .more [a] ∧ Hex.push [a] b = .more [b, a] ∧ Hex.push [b, a] c = .more [c, b, a] ∧
      Hex.push [c, b, a] d = .unit n := by
  rcases h with @⟨_, _, _, _, i, j, k, l, ha, hb, hc, hd⟩
  have hvalues : hexValues? [a, b, c, d] = some (4096 * i + 256 * j + 16 * k + l) := by
    simp only [hexValues?, List.foldlM_cons, List.foldlM_nil, hexValue?_eq_some_iff.mpr ha,
      hexValue?_eq_some_iff.mpr hb, hexValue?_eq_some_iff.mpr hc, hexValue?_eq_some_iff.mpr hd,
      Option.map_some, Option.bind_eq_bind, Option.bind_some]
    exact congrArg some (by omega)
  simp [Hex.push, Text.size_cons, ha.utf8Size_eq, hb.utf8Size_eq, hc.utf8Size_eq, hd.utf8Size_eq, hexWidth,
    hvalues]

/-- What is taken for a code unit is one. -/
theorem codeUnit_of_push {read : List Char} {c : Char} {n : Nat} (hread : Text.size read < hexWidth)
    (h : Hex.push read c = .unit n) : CodeUnit (read.reverse ++ [c]) n := by
  unfold Hex.push at h
  split at h
  · cases h
  · rename_i hsize
    split at h
    · rename_i v hv
      cases h
      have hdigits := hexDigits_of_foldlM hv
      have hmem : ∀ d ∈ c :: read, ∃ k, HexDigit d k := fun d hd => hdigits d (List.mem_reverse.mpr hd)
      have hlength : read.length = 3 := by
        have h1 := size_eq_length_of_hexDigits hmem
        have h2 := size_eq_length_of_hexDigits (List.forall_mem_cons.mp hmem).2
        rw [List.length_cons] at h1
        unfold hexWidth at hread hsize
        omega
      obtain ⟨x, y, z, rfl⟩ : ∃ x y z, read = [x, y, z] :=
        ⟨_, _, _, List.eq_getElem_of_length_eq_three read hlength⟩
      obtain ⟨⟨l, hl⟩, ⟨k, hk⟩, ⟨j, hj⟩, ⟨i, hi⟩⟩ := by simpa using hmem
      have : n = 4096 * i + 256 * j + 16 * k + l := by
        simp [hexValues?, hexValue?_eq_some_iff.mpr hi, hexValue?_eq_some_iff.mpr hj,
          hexValue?_eq_some_iff.mpr hk, hexValue?_eq_some_iff.mpr hl] at hv
        omega
      rw [this]
      exact .digits hi hj hk hl
    · cases h

/-! ## 3. Every form is read -/

/-- The reader of the inside of a quoted text, by itself. -/
def quoteMachine : Machine Quote String where
  step := Quote.step
  finish _ := .error .endInText

theorem feed_quote {q q' : Quote} {c : Char} (h : q.step c = .next q') (rest : List Char) :
    quoteMachine.feed q (c :: rest) = quoteMachine.feed q' rest :=
  Machine.feed_cons _ h rest

/-- What is found in a table of escapes is there. -/
theorem mem_of_lookup {table : List (Char × Char)} {c d : Char} (h : table.lookup c = some d) :
    (c, d) ∈ table := by
  obtain ⟨front, back, hsplit, -⟩ := List.lookup_eq_some_iff.mp h
  rw [hsplit]
  exact List.mem_append_right front List.mem_cons_self

theorem shortEscape?_eq_some_iff {e c : Char} : shortEscape? e = some c ↔ (e, c) ∈ shortForms := by
  constructor
  · intro h
    show (e, c) ∈ shortEscapes
    exact mem_of_lookup h
  · intro h
    simp only [shortForms, List.mem_cons, Prod.mk.injEq, List.not_mem_nil, or_false] at h
    rcases h with ⟨rfl, rfl⟩ | ⟨rfl, rfl⟩ | ⟨rfl, rfl⟩ | ⟨rfl, rfl⟩ | ⟨rfl, rfl⟩ | ⟨rfl, rfl⟩ |
      ⟨rfl, rfl⟩ | ⟨rfl, rfl⟩ <;> rfl

/-- No short form begins like a code unit. -/
theorem short_ne_u {e c : Char} (h : (e, c) ∈ shortForms) : e ≠ 'u' := by
  rintro rfl
  rw [← shortEscape?_eq_some_iff] at h
  cases h

section Steps

variable {read digits : List Char} {c : Char} {m n : Nat}

theorem step_plain (quote : c ≠ '"') (backslash : c ≠ '\\') (control : ' ' ≤ c) :
    Quote.step ⟨.plain, read⟩ c = .next ⟨.plain, c :: read⟩ := by
  simp [Quote.step, quote, backslash, Char.not_lt.mpr control, Quote.add]

theorem step_backslash : Quote.step ⟨.plain, read⟩ '\\' = .next ⟨.escape, read⟩ := rfl

theorem step_u : Quote.step ⟨.escape, read⟩ 'u' = .next ⟨.hex [], read⟩ := rfl

theorem step_leadBackslash : Quote.step ⟨.lead m, read⟩ '\\' = .next ⟨.leadEscape m, read⟩ := rfl

theorem step_leadU : Quote.step ⟨.leadEscape m, read⟩ 'u' = .next ⟨.leadHex m [], read⟩ := rfl

theorem step_short {e : Char} (known : (e, c) ∈ shortForms) :
    Quote.step ⟨.escape, read⟩ e = .next ⟨.plain, c :: read⟩ := by
  simp [Quote.step, short_ne_u known, shortEscape?_eq_some_iff.mpr known, Quote.add]

/-- The digits of a code unit are taken in; the unit is dealt with at the fourth. -/
theorem feed_hex (h : CodeUnit digits n) {next : Quote}
    (hnext : Quote.firstUnit ⟨.plain, read⟩ n = .next next) :
    quoteMachine.feed ⟨.hex [], read⟩ digits = some next := by
  rcases h with @⟨a, b, c, d, i, j, k, l, ha, hb, hc, hd⟩
  obtain ⟨h1, h2, h3, h4⟩ := push_codeUnit (.digits ha hb hc hd)
  have hlast : Quote.firstUnit ⟨.hex [c, b, a], read⟩ (4096 * i + 256 * j + 16 * k + l) = .next next :=
    hnext
  simp only [quoteMachine, Machine.feed, Quote.step, h1, h2, h3, h4, hlast]

/-- The same for the code unit that ends a pair. -/
theorem feed_leadHex (h : CodeUnit digits n) (trails : trailing n = true) :
    quoteMachine.feed ⟨.leadHex m [], read⟩ digits = some ⟨.plain, pair m n :: read⟩ := by
  obtain ⟨ha, hb, hc, hd⟩ := h
  obtain ⟨h1, h2, h3, h4⟩ := push_codeUnit (.digits ha hb hc hd)
  simp only [quoteMachine, Machine.feed, Quote.step, h1, h2, h3, h4, Quote.secondUnit, trails, if_true]
  rfl

end Steps

/-- Every form of a character is read as that character. -/
theorem feed_spelling {form : List Char} {c : Char} (h : Spelling form c) (read : List Char) :
    quoteMachine.feed ⟨.plain, read⟩ form = some ⟨.plain, c :: read⟩ := by
  cases h with
  | plain quote backslash control => exact feed_quote (step_plain quote backslash control) []
  | short known =>
    rw [feed_quote step_backslash]
    exact feed_quote (step_short known) []
  | @unit digits n h alone =>
    rw [feed_quote step_backslash, feed_quote step_u]
    refine feed_hex h ?_
    have ht : trailing n = false := by
      simp only [trailing, Bool.and_eq_false_iff, decide_eq_false_iff_not]
      omega
    have hl : leading n = false := by
      simp only [leading, Bool.and_eq_false_iff, decide_eq_false_iff_not]
      omega
    simp [Quote.firstUnit, ht, hl, Quote.add]
  | @pair first second m n hm leads hn trails =>
    have ht : trailing m = false := by
      simp only [trailing, Bool.and_eq_false_iff, decide_eq_false_iff_not]
      omega
    have hl : leading m = true := by simp [leading, leads]
    have htn : trailing n = true := by simp [trailing, trails]
    have hfirst : quoteMachine.feed ⟨.hex [], read⟩ first = some ⟨.lead m, read⟩ :=
      feed_hex hm (by simp [Quote.firstUnit, ht, hl])
    rw [feed_quote step_backslash, feed_quote step_u, Machine.feed_append _ hfirst,
      feed_quote step_leadBackslash, feed_quote step_leadU]
    exact feed_leadHex hn htn

/-- **Every form of a text is read**, and as that text. -/
theorem feed_spelled {forms text : List Char} (h : Spelled forms text) (read : List Char) :
    quoteMachine.feed ⟨.plain, read⟩ forms = some ⟨.plain, text.reverse ++ read⟩ := by
  induction h generalizing read with
  | nil => rfl
  | @cons form forms text c head tail ih =>
    rw [Machine.feed_append _ (feed_spelling head read), ih, List.reverse_cons, List.append_assoc]
    rfl

theorem feed_spelled_empty {forms text : List Char} (h : Spelled forms text) :
    quoteMachine.feed .empty forms = some ⟨.plain, text.reverse⟩ := by
  have := feed_spelled h []
  rwa [List.append_nil] at this

/-! ## 4. What is read is a form -/

/-- How far the forms have come where the reader is: `form` is what it has read since the opening quote. -/
def Quote.Reads (form : List Char) (q : Quote) : Prop :=
  match q.mode with
  | .plain => Spelled form q.read.reverse
  | .escape => ∃ w, form = w ++ ['\\'] ∧ Spelled w q.read.reverse
  | .hex digits =>
    ∃ w, form = w ++ '\\' :: 'u' :: digits.reverse ∧ Text.size digits < hexWidth ∧ Spelled w q.read.reverse
  | .lead m =>
    ∃ w first, form = w ++ '\\' :: 'u' :: first ∧ CodeUnit first m ∧ leading m = true ∧
      Spelled w q.read.reverse
  | .leadEscape m =>
    ∃ w first, form = w ++ '\\' :: 'u' :: (first ++ ['\\']) ∧ CodeUnit first m ∧ leading m = true ∧
      Spelled w q.read.reverse
  | .leadHex m digits =>
    ∃ w first, form = w ++ '\\' :: 'u' :: (first ++ '\\' :: 'u' :: digits.reverse) ∧ CodeUnit first m ∧
      leading m = true ∧ Text.size digits < hexWidth ∧ Spelled w q.read.reverse

/-- Nothing is read right behind the opening quote. -/
theorem Quote.reads_empty : Quote.Reads [] .empty := Spelled.nil

theorem size_of_push_more {read more : List Char} {c : Char} (h : Hex.push read c = .more more) :
    more = c :: read ∧ Text.size more < hexWidth := by
  unfold Hex.push at h
  split at h
  · rename_i hsize
    cases h
    exact ⟨rfl, hsize⟩
  · split at h <;> cases h

/-- **Every character that is read keeps the invariant.** -/
theorem Quote.reads_of_next {form : List Char} {q q' : Quote} {c : Char} (hr : q.Reads form)
    (h : q.step c = .next q') : q'.Reads (form ++ [c]) := by
  obtain ⟨mode, read⟩ := q
  cases mode with
  | plain =>
    simp only [step] at h
    split at h
    · cases h
    · rename_i hquote
      split at h
      · rename_i hback
        cases h
        exact ⟨form, by rw [hback], hr⟩
      · rename_i hback
        split at h
        · cases h
        · rename_i hcontrol
          cases h
          show Spelled _ (c :: read).reverse
          rw [List.reverse_cons]
          exact hr.snoc (.plain hquote hback (Char.not_lt.mp hcontrol))
  | escape =>
    obtain ⟨w, rfl, hw⟩ := hr
    simp only [step] at h
    split at h
    · rename_i hu
      cases h
      exact ⟨w, by simp [hu], by simp [hexWidth], hw⟩
    · split at h
      · rename_i d hd
        cases h
        show Spelled _ (d :: read).reverse
        rw [List.reverse_cons, List.append_assoc]
        exact hw.snoc (.short (shortEscape?_eq_some_iff.mp hd))
      · cases h
  | hex digits =>
    obtain ⟨w, rfl, hsize, hw⟩ := hr
    simp only [step] at h
    split at h
    · rename_i more hmore
      cases h
      obtain ⟨rfl, hsize⟩ := size_of_push_more hmore
      exact ⟨w, by simp, hsize, hw⟩
    · rename_i n hn
      have hunit := codeUnit_of_push hsize hn
      simp only [firstUnit] at h
      split at h
      · cases h
      · rename_i htrail
        split at h
        · rename_i hlead
          cases h
          exact ⟨w, digits.reverse ++ [c], by simp, hunit, hlead, hw⟩
        · rename_i hlead
          cases h
          have halone : ¬ (0xd800 ≤ n ∧ n < 0xe000) := by
            simp only [trailing, leading, Bool.and_eq_true, decide_eq_true_eq] at htrail hlead
            omega
          show Spelled _ (Char.ofNat n :: read).reverse
          rw [List.reverse_cons, List.append_assoc]
          exact hw.snoc (.unit hunit halone)
    · cases h
  | lead m =>
    obtain ⟨w, first, rfl, hm, hlead, hw⟩ := hr
    simp only [step] at h
    split at h
    · rename_i hback
      cases h
      exact ⟨w, first, by simp [hback], hm, hlead, hw⟩
    · cases h
  | leadEscape m =>
    obtain ⟨w, first, rfl, hm, hlead, hw⟩ := hr
    simp only [step] at h
    split at h
    · rename_i hu
      cases h
      exact ⟨w, first, by simp [hu], hm, hlead, by simp [hexWidth], hw⟩
    · cases h
  | leadHex m digits =>
    obtain ⟨w, first, rfl, hm, hlead, hsize, hw⟩ := hr
    simp only [step] at h
    split at h
    · rename_i more hmore
      cases h
      obtain ⟨rfl, hsize⟩ := size_of_push_more hmore
      exact ⟨w, first, by simp, hm, hlead, hsize, hw⟩
    · rename_i n hn
      have hunit := codeUnit_of_push hsize hn
      simp only [secondUnit] at h
      split at h
      · rename_i htrail
        cases h
        have hm' : 0xd800 ≤ m ∧ m < 0xdc00 := by simpa [leading] using hlead
        have hn' : 0xdc00 ≤ n ∧ n < 0xe000 := by simpa [trailing] using htrail
        have hpair := hw.snoc (.pair hm hm' hunit hn')
        show Spelled _ (pair m n :: read).reverse
        rw [List.reverse_cons]
        simpa [pair] using hpair
      · cases h
    · cases h

/-- **At the closing quote** what was read is a form of the text. -/
theorem Quote.spelled_of_stop {form : List Char} {q : Quote} {c : Char} {text : String} (hr : q.Reads form)
    (h : q.step c = .stop text) : c = '"' ∧ ∃ chars, Spelled form chars ∧ text = String.ofList chars := by
  obtain ⟨mode, read⟩ := q
  cases mode with
  | plain =>
    simp only [step] at h
    split at h
    · rename_i hquote
      cases h
      exact ⟨hquote, read.reverse, hr, rfl⟩
    · repeat' split at h
      all_goals cases h
  | escape =>
    simp only [step] at h
    repeat' split at h
    all_goals cases h
  | hex digits =>
    simp only [step, firstUnit] at h
    repeat' split at h
    all_goals cases h
  | lead m =>
    simp only [step] at h
    split at h <;> cases h
  | leadEscape m =>
    simp only [step] at h
    split at h <;> cases h
  | leadHex m digits =>
    simp only [step, secondUnit] at h
    repeat' split at h
    all_goals cases h

end LinkPane.Json
