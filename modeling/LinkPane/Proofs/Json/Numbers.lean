import LinkPane.Json.Value.Reader
import LinkPane.Proofs.Json.Grammar

/-!
# Reading numbers

* `digitsMachine` -- the reader of a number, by itself;
* **`feed_number`** -- it reads every form of a number that does not overflow, and as that literal;
* `Begun` -- what begins a number, with the literal that it shows so far;
* **`Digits.reads_of_next`, `Begun.numberForm`** -- every character that is read keeps to the forms, and where
  a literal may end it is a form of a number.
-/

namespace LinkPane.Json

theorem isDigit_iff {c : Char} : isDigit c = true ↔ '0' ≤ c ∧ c ≤ '9' := by
  simp [isDigit]

/-- The reader of a number, by itself. -/
def digitsMachine : Machine Digits Numeral where
  step := Digits.step
  finish := Digits.finish

/-! ## 1. Rows of digits -/

/-- A literal with a row of digits read into its part `place`. -/
def Literal.gather (place : Place) (read : Literal) (digits : List Char) : Literal :=
  digits.foldl (fun read c => (Digits.add read place c).read) read

theorem Literal.gather_whole (read : Literal) (digits : List Char) :
    read.gather .whole digits = { read with whole := digits.reverse ++ read.whole } := by
  induction digits generalizing read with
  | nil => rfl
  | cons c digits ih =>
    rw [gather, List.foldl_cons, ← gather, ih, List.reverse_cons, List.append_assoc]
    rfl

theorem Literal.gather_fraction (read : Literal) (digits : List Char) :
    read.gather .fraction digits = { read with fraction := digits.reverse ++ read.fraction } := by
  induction digits generalizing read with
  | nil => rfl
  | cons c digits ih =>
    rw [gather, List.foldl_cons, ← gather, ih, List.reverse_cons, List.append_assoc]
    rfl

theorem Literal.gather_exponent (sign : Bool) (whole fraction : List Char) (negative : Bool)
    (before digits : List Char) :
    Literal.gather .exponent ⟨sign, whole, fraction, some ⟨negative, before⟩⟩ digits =
      ⟨sign, whole, fraction, some ⟨negative, digits.reverse ++ before⟩⟩ := by
  induction digits generalizing before with
  | nil => rfl
  | cons c digits ih =>
    rw [gather, List.foldl_cons, ← gather, List.reverse_cons, List.append_assoc]
    exact ih (c :: before)

section Runs

variable {p q : Place} {read : Literal} {c : Char} {digits : List Char}

theorem step_to (h : p.step c = .to q) (fits : (Digits.add read q c).overflows = false) :
    Digits.step ⟨p, read⟩ c = .next (.add read q c) := by
  simp [Digits.step, h, fits]

/-- Outside the exponent nothing overflows. -/
theorem overflows_eq_false (h : q ≠ .exponent) : Digits.overflows ⟨q, read⟩ = false := by
  simp [Digits.overflows, h]

/-- Digits that leave the reader in one place are all read, if none of them overflows. -/
theorem feed_run (stays : ∀ c, isDigit c = true → q.step c = .to q) (h : Decimals digits)
    (fits : ∀ front back, digits = front ++ back → Digits.overflows ⟨q, read.gather q front⟩ = false) :
    digitsMachine.feed ⟨q, read⟩ digits = some ⟨q, read.gather q digits⟩ := by
  induction digits generalizing read with
  | nil => rfl
  | cons c digits ih =>
    have hc := isDigit_iff.mpr (h c List.mem_cons_self)
    have hnext := step_to (stays c hc) (fits [c] digits rfl)
    rw [Machine.feed_cons digitsMachine hnext]
    exact ih (fun d hd => h d (List.mem_cons_of_mem c hd)) fun front back hsplit =>
      fits (c :: front) back (by rw [hsplit]; rfl)

/-- The same where the first digit brings the reader there. -/
theorem feed_run_cons (enters : ∀ c, isDigit c = true → p.step c = .to q)
    (stays : ∀ c, isDigit c = true → q.step c = .to q) (h : Decimals digits) (nonempty : digits ≠ [])
    (fits : ∀ front back, digits = front ++ back → Digits.overflows ⟨q, read.gather q front⟩ = false) :
    digitsMachine.feed ⟨p, read⟩ digits = some ⟨q, read.gather q digits⟩ := by
  obtain ⟨c, digits, rfl⟩ := List.exists_cons_of_ne_nil nonempty
  have hc := isDigit_iff.mpr (h c List.mem_cons_self)
  have hnext := step_to (enters c hc) (fits [c] digits rfl)
  rw [Machine.feed_cons digitsMachine hnext]
  exact feed_run stays (fun d hd => h d (List.mem_cons_of_mem c hd)) fun front back hsplit =>
    fits (c :: front) back (by rw [hsplit]; rfl)

end Runs

/-! ## 2. Exponents that overflow -/

theorem le_digitsValue (digits : List Char) (n : Nat) :
    n ≤ digits.foldl (fun n c => 10 * n + digitValue c) n := by
  induction digits generalizing n with
  | nil => exact Nat.le_refl n
  | cons c digits ih => exact Nat.le_trans (by omega) (ih (10 * n + digitValue c))

/-- Digits behind a number do not make it smaller. -/
theorem digitsValue_le_append (front back : List Char) : digitsValue front ≤ digitsValue (front ++ back) := by
  rw [digitsValue, digitsValue, List.foldl_append]
  exact le_digitsValue back _

/-- If an exponent does not overflow, what begins it does not. -/
theorem Literal.overflows_front {sign : Bool} {whole fraction : List Char} {negative : Bool}
    {front back : List Char}
    (h : Literal.overflows ⟨sign, whole, fraction, some ⟨negative, front ++ back⟩⟩ = false) :
    Literal.overflows ⟨sign, whole, fraction, some ⟨negative, front⟩⟩ = false := by
  have hle := digitsValue_le_append front back
  simp only [overflows, significand, Bool.and_eq_false_iff, Bool.not_eq_false', bne_eq_false_iff_eq,
    decide_eq_false_iff_not, Nat.not_lt] at h ⊢
  rcases h with h | h
  · exact .inl h
  · exact .inr (Nat.le_trans hle h)

/-- What stands for a number does not overflow. -/
theorem Literal.overflows_of_numeral? {l : Literal} {n : Numeral} (h : l.numeral? = some n) :
    l.overflows = false := by
  cases ho : l.overflows with
  | false => rfl
  | true => simp [numeral?, ho] at h

/-! ## 3. Every form is read -/

/-- The sign and the digits in front of the point. -/
theorem feed_whole {sign whole : List Char} {negative : Bool} (hs : Signed sign negative) (hw : Whole whole) :
    ∃ c rest place, sign ++ whole = c :: rest ∧ (c = '-' ∨ isDigit c = true) ∧
      (place = .zero ∨ place = .whole) ∧
      digitsMachine.feed (.first c) rest = some ⟨place, ⟨negative, whole.reverse, [], none⟩⟩ := by
  cases hw with
  | zero =>
    cases hs with
    | absent => exact ⟨'0', [], .zero, rfl, .inr rfl, .inl rfl, rfl⟩
    | minus => exact ⟨'-', ['0'], .zero, rfl, .inl rfl, .inl rfl, rfl⟩
  | @digits c digits h lead =>
    have hc := isDigit_iff.mpr (h c List.mem_cons_self)
    have hplace : Place.ofDigit c = .whole := if_neg lead
    have hrun : ∀ negative, digitsMachine.feed ⟨.whole, ⟨negative, [c], [], none⟩⟩ digits =
        some ⟨.whole, ⟨negative, (c :: digits).reverse, [], none⟩⟩ := fun negative => by
      rw [feed_run (fun c hc => by simp [Place.step, hc]) (fun d hd => h d (List.mem_cons_of_mem c hd))
        (fun _ _ _ => overflows_eq_false (by decide)), Literal.gather_whole, List.reverse_cons]
    cases hs with
    | absent =>
      have hfirst : Digits.first c = ⟨.whole, ⟨false, [c], [], none⟩⟩ := by
        have : c ≠ '-' := by
          rintro rfl
          exact absurd hc (by decide)
        rw [Digits.first, if_neg this, hplace]
        rfl
      exact ⟨c, digits, .whole, rfl, .inr hc, .inr rfl, hfirst ▸ hrun false⟩
    | minus =>
      refine ⟨'-', c :: digits, .whole, rfl, .inl rfl, .inr rfl, ?_⟩
      have hstep : Digits.step (.first '-') c = .next ⟨.whole, ⟨true, [c], [], none⟩⟩ :=
        step_to (q := .whole) (by rw [← hplace]; exact if_pos hc) (overflows_eq_false (by decide))
      rw [Machine.feed_cons digitsMachine hstep]
      exact hrun true

/-- The point and the digits behind it. -/
theorem feed_fraction {point digits : List Char} (hf : Fraction point digits) {place : Place}
    (hp : place = .zero ∨ place = .whole) (negative : Bool) (whole : List Char) :
    ∃ place', (place' = .zero ∨ place' = .whole ∨ place' = .fraction) ∧
      digitsMachine.feed ⟨place, ⟨negative, whole, [], none⟩⟩ point =
        some ⟨place', ⟨negative, whole, digits.reverse, none⟩⟩ := by
  cases hf with
  | absent => exact ⟨place, hp.imp_right .inl, rfl⟩
  | digits h nonempty =>
    refine ⟨.fraction, .inr (.inr rfl), ?_⟩
    have hpoint : place.step '.' = .to .point := by
      rcases hp with rfl | rfl <;> rfl
    have hstep : Digits.step ⟨place, ⟨negative, whole, [], none⟩⟩ '.' =
        .next ⟨.point, ⟨negative, whole, [], none⟩⟩ := step_to hpoint (overflows_eq_false (by decide))
    have hrun : digitsMachine.feed ⟨.point, ⟨negative, whole, [], none⟩⟩ digits =
        some ⟨.fraction, Literal.gather .fraction ⟨negative, whole, [], none⟩ digits⟩ :=
      feed_run_cons (fun c hc => by simp [Place.step, hc]) (fun c hc => by simp [Place.step, hc]) h nonempty
        (fun _ _ _ => overflows_eq_false (by decide))
    rw [Literal.gather_fraction, List.append_nil] at hrun
    rw [Machine.feed_cons digitsMachine hstep]
    exact hrun

/-- The digits of an exponent. -/
theorem feed_exponent {place : Place} (hp : place = .mark ∨ place = .markSign) {sign negative : Bool}
    {whole fraction digits : List Char} (h : Decimals digits) (nonempty : digits ≠ [])
    (fits : Literal.overflows ⟨sign, whole, fraction, some ⟨negative, digits⟩⟩ = false) :
    digitsMachine.feed ⟨place, ⟨sign, whole.reverse, fraction.reverse, some ⟨negative, []⟩⟩⟩ digits =
      some ⟨.exponent, ⟨sign, whole.reverse, fraction.reverse, some ⟨negative, digits.reverse⟩⟩⟩ := by
  have henters : ∀ c, isDigit c = true → place.step c = .to .exponent := fun c hc => by
    rcases hp with rfl | rfl <;> simp [Place.step, hc]
  rw [feed_run_cons henters (fun c hc => by simp [Place.step, hc]) h nonempty, Literal.gather_exponent,
    List.append_nil]
  rintro front back rfl
  rw [Literal.gather_exponent]
  simpa [Digits.overflows, Digits.literal] using Literal.overflows_front fits

/-- The exponent, if there is one. -/
theorem feed_mark {mark : List Char} {exponent : Option Exponent} (he : ExponentForm mark exponent)
    {place : Place} (hp : place = .zero ∨ place = .whole ∨ place = .fraction) {negative : Bool}
    {whole digits : List Char} (fits : Literal.overflows ⟨negative, whole, digits, exponent⟩ = false) :
    ∃ d, digitsMachine.feed ⟨place, ⟨negative, whole.reverse, digits.reverse, none⟩⟩ mark = some d ∧
      d.literal = ⟨negative, whole, digits, exponent⟩ ∧ d.place.isEnd = true := by
  cases he with
  | absent =>
    refine ⟨⟨place, ⟨negative, whole.reverse, digits.reverse, none⟩⟩, rfl, by simp [Digits.literal], ?_⟩
    rcases hp with rfl | rfl | rfl <;> rfl
  | @digits mark sign power minus hm hs h nonempty =>
    have hmark : place.step mark = .to .mark := by
      rcases hp with rfl | rfl | rfl <;> rcases hm with rfl | rfl <;> rfl
    have hstep : Digits.step ⟨place, ⟨negative, whole.reverse, digits.reverse, none⟩⟩ mark =
        .next ⟨.mark, ⟨negative, whole.reverse, digits.reverse, some ⟨false, []⟩⟩⟩ :=
      step_to hmark (overflows_eq_false (by decide))
    have hrun : ∀ place, place = .mark ∨ place = .markSign → digitsMachine.feed
        ⟨place, ⟨negative, whole.reverse, digits.reverse, some ⟨minus, []⟩⟩⟩ power =
        some ⟨.exponent, ⟨negative, whole.reverse, digits.reverse, some ⟨minus, power.reverse⟩⟩⟩ :=
      fun place hp => feed_exponent hp h nonempty fits
    refine ⟨⟨.exponent, ⟨negative, whole.reverse, digits.reverse, some ⟨minus, power.reverse⟩⟩⟩, ?_,
      by simp [Digits.literal], rfl⟩
    rw [Machine.feed_cons digitsMachine hstep]
    cases hs with
    | absent => exact hrun .mark (.inl rfl)
    | plus => exact hrun .markSign (.inr rfl)
    | minus => exact hrun .markSign (.inr rfl)

/-- **Every form of a number is read**, as its literal, and may end there. -/
theorem feed_number {form : List Char} {literal : Literal} (h : NumberForm form literal)
    (fits : literal.overflows = false) :
    ∃ c rest d, form = c :: rest ∧ (c = '-' ∨ isDigit c = true) ∧
      digitsMachine.feed (.first c) rest = some d ∧ d.literal = literal ∧ d.place.isEnd = true := by
  obtain ⟨hs, hw, hf, he⟩ := h
  obtain ⟨c, rest, place, hsplit, hc, hp, hwhole⟩ := feed_whole hs hw
  obtain ⟨place', hp', hfraction⟩ := feed_fraction hf hp _ _
  obtain ⟨d, hmark, hd, hend⟩ := feed_mark he hp' fits
  refine ⟨c, _, d, by rw [← List.append_assoc, hsplit, List.cons_append], hc, ?_, hd, hend⟩
  rw [Machine.feed_append _ hwhole, Machine.feed_append _ hfraction, hmark]

/-! ## 4. What is read is a form -/

/-- What begins a number: the part of it that comes last, and the literal that it shows so far. -/
inductive Begun : List Char → Place → Literal → Prop
  | minus : Begun ['-'] .minus ⟨true, [], [], none⟩
  | zero {sign : List Char} {negative : Bool} (hs : Signed sign negative) :
      Begun (sign ++ ['0']) .zero ⟨negative, ['0'], [], none⟩
  | whole {sign digits : List Char} {c : Char} {negative : Bool} (hs : Signed sign negative)
      (h : Decimals (c :: digits)) (lead : c ≠ '0') :
      Begun (sign ++ c :: digits) .whole ⟨negative, c :: digits, [], none⟩
  | point {sign whole : List Char} {negative : Bool} (hs : Signed sign negative) (hw : Whole whole) :
      Begun (sign ++ (whole ++ ['.'])) .point ⟨negative, whole, [], none⟩
  | fraction {sign whole digits : List Char} {negative : Bool} (hs : Signed sign negative) (hw : Whole whole)
      (h : Decimals digits) (nonempty : digits ≠ []) :
      Begun (sign ++ (whole ++ '.' :: digits)) .fraction ⟨negative, whole, digits, none⟩
  | mark {sign whole point digits : List Char} {mark : Char} {negative : Bool} (hs : Signed sign negative)
      (hw : Whole whole) (hf : Fraction point digits) (hm : mark = 'e' ∨ mark = 'E') :
      Begun (sign ++ (whole ++ (point ++ [mark]))) .mark ⟨negative, whole, digits, some ⟨false, []⟩⟩
  | markSign {sign whole point digits : List Char} {mark c : Char} {negative : Bool}
      (hs : Signed sign negative) (hw : Whole whole) (hf : Fraction point digits)
      (hm : mark = 'e' ∨ mark = 'E') (hc : c = '+' ∨ c = '-') :
      Begun (sign ++ (whole ++ (point ++ [mark, c]))) .markSign
        ⟨negative, whole, digits, some ⟨c == '-', []⟩⟩
  | exponent {sign whole point digits powerSign power : List Char} {mark : Char} {negative minus : Bool}
      (hs : Signed sign negative) (hw : Whole whole) (hf : Fraction point digits)
      (hm : mark = 'e' ∨ mark = 'E') (hp : ExponentSign powerSign minus) (h : Decimals power)
      (nonempty : power ≠ []) :
      Begun (sign ++ (whole ++ (point ++ mark :: (powerSign ++ power)))) .exponent
        ⟨negative, whole, digits, some ⟨minus, power⟩⟩

/-- The literal that `l` is with one more character, in the part `place`. -/
def Literal.snoc (l : Literal) (place : Place) (c : Char) : Literal :=
  match place with
  | .minus => { l with negative := true }
  | .zero | .whole => { l with whole := l.whole ++ [c] }
  | .point => l
  | .fraction => { l with fraction := l.fraction ++ [c] }
  | .mark => { l with exponent := some ⟨false, []⟩ }
  | .markSign => { l with exponent := some ⟨c == '-', []⟩ }
  | .exponent => { l with exponent := l.exponent.map fun e => { e with digits := e.digits ++ [c] } }

theorem Digits.literal_add (d : Digits) (place : Place) (c : Char) :
    (Digits.add d.read place c).literal = d.literal.snoc place c := by
  cases place <;> simp [Digits.add, Digits.literal, Literal.snoc, Function.comp_def]

theorem Decimals.snoc {digits : List Char} {c : Char} (h : Decimals digits) (hc : isDigit c = true) :
    Decimals (digits ++ [c]) := fun d hd =>
  (List.mem_append.mp hd).elim (h d) fun hd => List.mem_singleton.mp hd ▸ isDigit_iff.mp hc

theorem decimals_singleton {c : Char} (hc : isDigit c = true) : Decimals [c] :=
  Decimals.snoc (fun _ h => absurd h List.not_mem_nil) hc

/-- The digits behind a sign begin with a zero alone or with another digit. -/
theorem Begun.ofDigit {sign : List Char} {negative : Bool} (hs : Signed sign negative) {c : Char}
    (hc : isDigit c = true) : Begun (sign ++ [c]) (.ofDigit c) ⟨negative, [c], [], none⟩ := by
  unfold Place.ofDigit
  split
  · rename_i hzero
    exact hzero ▸ .zero hs
  · rename_i hlead
    exact .whole hs (decimals_singleton hc) hlead

theorem isMark_iff {c : Char} : isMark c = true ↔ c = 'e' ∨ c = 'E' := by
  simp [isMark]

theorem Literal.snoc_ofDigit (l : Literal) (c : Char) :
    l.snoc (.ofDigit c) c = { l with whole := l.whole ++ [c] } := by
  unfold Place.ofDigit
  split <;> rfl

/-- Behind a whole part there may be a point or a mark. -/
theorem Begun.afterWhole {sign whole : List Char} {negative : Bool} (hs : Signed sign negative)
    (hw : Whole whole) {c : Char} {place : Place}
    (h : (if c = '.' then .to .point else if isMark c then .to .mark else .ended) = Place.Move.to place) :
    Begun (sign ++ (whole ++ [c])) place (Literal.snoc ⟨negative, whole, [], none⟩ place c) := by
  split at h
  · rename_i hc
    cases h
    exact hc ▸ .point hs hw
  · split at h
    · rename_i hc
      cases h
      exact .mark hs hw .absent (isMark_iff.mp hc)
    · cases h

/-- **What the reader of a number goes on through** begins a number, with all that came before. -/
theorem Begun.next {form : List Char} {place place' : Place} {l : Literal} {c : Char} (h : Begun form place l)
    (hp : place.step c = .to place') : Begun (form ++ [c]) place' (l.snoc place' c) := by
  cases h with
  | minus =>
    simp only [Place.step] at hp
    split at hp
    · rename_i hc
      cases hp
      rw [Literal.snoc_ofDigit]
      exact .ofDigit .minus hc
    · cases hp
  | zero hs =>
    simp only [Place.step] at hp
    split at hp
    · cases hp
    · rw [List.append_assoc]
      exact .afterWhole hs .zero hp
  | whole hs h lead =>
    simp only [Place.step] at hp
    rw [List.append_assoc]
    split at hp
    · rename_i hc
      cases hp
      exact .whole hs (h.snoc hc) lead
    · exact .afterWhole hs (.digits h lead) hp
  | point hs hw =>
    simp only [Place.step] at hp
    split at hp
    · rename_i hc
      cases hp
      simp only [List.append_assoc]
      exact .fraction hs hw (decimals_singleton hc) (List.cons_ne_nil c [])
    · cases hp
  | fraction hs hw h nonempty =>
    simp only [Place.step] at hp
    simp only [List.append_assoc]
    split at hp
    · rename_i hc
      cases hp
      exact .fraction hs hw (h.snoc hc) (by simp)
    · split at hp
      · rename_i hc
        cases hp
        exact .mark hs hw (.digits h nonempty) (isMark_iff.mp hc)
      · cases hp
  | mark hs hw hf hm =>
    simp only [Place.step] at hp
    simp only [List.append_assoc]
    split at hp
    · rename_i hc
      cases hp
      exact .exponent hs hw hf hm .absent (decimals_singleton hc) (List.cons_ne_nil c [])
    · split at hp
      · rename_i hc
        cases hp
        exact .markSign hs hw hf hm hc
      · cases hp
  | @markSign _ _ _ _ _ d _ hs hw hf hm hd =>
    simp only [Place.step] at hp
    simp only [List.append_assoc]
    split at hp
    · rename_i hc
      cases hp
      have hsign : ExponentSign [d] (d == '-') := by
        rcases hd with rfl | rfl
        · exact .plus
        · exact .minus
      exact .exponent hs hw hf hm hsign (decimals_singleton hc) (List.cons_ne_nil c [])
    · cases hp
  | exponent hs hw hf hm hsign h nonempty =>
    simp only [Place.step] at hp
    split at hp
    · rename_i hc
      cases hp
      have := Begun.exponent hs hw hf hm hsign (h.snoc hc) (by simp)
      simpa [Literal.snoc] using this
    · cases hp

/-- Where a literal may end, it is a form of a number. -/
theorem Begun.numberForm {form : List Char} {place : Place} {l : Literal} (h : Begun form place l)
    (hend : place.isEnd = true) : NumberForm form l := by
  cases h with
  | zero hs => exact .parts hs .zero .absent .absent
  | whole hs h lead =>
    have := NumberForm.parts hs (.digits h lead) .absent .absent
    simpa using this
  | fraction hs hw h nonempty =>
    have := NumberForm.parts hs hw (.digits h nonempty) .absent
    simpa using this
  | exponent hs hw hf hm hsign h nonempty => exact .parts hs hw hf (.digits hm hsign h nonempty)
  | minus => cases hend
  | point => cases hend
  | mark => cases hend
  | markSign => cases hend

/-- How far the forms have come where the reader is: `form` is what it has read. -/
def Digits.Reads (form : List Char) (d : Digits) : Prop :=
  Begun form d.place d.literal

/-- The first character of a number. -/
theorem Digits.reads_first {c : Char} (h : c = '-' ∨ isDigit c = true) : Digits.Reads [c] (.first c) := by
  unfold first Reads
  split
  · rename_i hc
    exact hc ▸ .minus
  · rename_i hne
    have hc := h.resolve_left hne
    have hadd : (Digits.add .empty (.ofDigit c) c).literal = ⟨false, [c], [], none⟩ :=
      (literal_add ⟨.zero, .empty⟩ _ c).trans (Literal.snoc_ofDigit _ c)
    rw [hadd]
    exact .ofDigit .absent hc

/-- **Every character that is read keeps the invariant.** -/
theorem Digits.reads_of_next {form : List Char} {d d' : Digits} {c : Char} (hr : d.Reads form)
    (h : d.step c = .next d') : d'.Reads (form ++ [c]) := by
  unfold step at h
  split at h
  · rename_i place hp
    dsimp only at h
    split at h
    · cases h
    · cases h
      unfold Reads
      rw [literal_add]
      exact hr.next hp
  · split at h <;> cases h
  · cases h

end LinkPane.Json
