import LinkPane.Proofs.Json.Skipping

/-!
# The reader and the skipper in step

The skipper keeps of a reader's state only its outline: the kinds of the open brackets and the place in the
text. On every character the two do the same, but that the reader may refuse what the skipper lets pass, for
one of four causes:

* `Cause.isStrict` -- the four causes;
* `Quote.outline`, `State.outline` -- what the skipper keeps;
* `Agrees` -- the reader's step and the skipper's;
* **`State.step_agrees`** -- they agree in every state and on every character;
* **`feed_or_refuses`** -- what the skipper goes on through the reader goes on through, or it refuses it for one
  of the four causes, whatever comes behind;
* `EndsAlike` -- the reader's result and the skipper's;
* **`State.run_endsAlike`** -- they end alike on every text.
-/

namespace LinkPane.Json

/-! ## 1. Outlines -/

/-- The causes for which the reader refuses what is well formed. -/
def Cause.isStrict : Cause → Bool
  | .numberOutOfRange | .tooDeep | .loneSurrogate | .endOfPair => true
  | _ => false

/-- Where the skipper is in a quoted text. It knows of no pairs of code units. -/
def Quote.outline (q : Quote) : SkipQuote :=
  match q.mode with
  | .plain | .lead _ => .plain
  | .escape | .leadEscape _ => .escape
  | .hex read | .leadHex _ read => .hex read

/-- The kind of a frame. -/
def Frame.kind : Frame → Bracket
  | .list _ => .list
  | .object _ _ => .object

/-- The kinds of the open brackets. -/
def brackets (frames : List Frame) : List Bracket :=
  frames.map Frame.kind

/-- Where the skipper is. -/
def State.outline : State → SkipState
  | .beforeValue frames => .beforeValue (brackets frames)
  | .firstItem frames => .opened .list (brackets frames)
  | .nextItem _ frames => .beforeValue (.list :: brackets frames)
  | .firstKey frames => .opened .object (brackets frames)
  | .nextKey _ frames => .nextKey (brackets frames)
  | .inKey quote _ frames => .inKey quote.outline (brackets frames)
  | .afterKey _ _ frames => .afterKey (brackets frames)
  | .inWord c rest _ frames => .inWord c rest (brackets frames)
  | .inText quote frames => .inText quote.outline (brackets frames)
  | .inNumber digits frames => .inNumber digits.place (brackets frames)
  | .afterValue _ frames => .afterValue (brackets frames)

/-! ## 2. One step -/

/-- The reader does what the skipper does, or it refuses for a cause of its own. -/
inductive Agrees {σ τ α : Type} (outline : σ → τ) : Step σ α → Step τ Unit → Prop
  | next {s : σ} {t : τ} (h : outline s = t) : Agrees outline (.next s) (.next t)
  | stop {value : α} : Agrees outline (.stop value) (.stop ())
  | refuse {cause cause' : Cause} {seen seen' : Nat} :
      Agrees outline (.refuse cause seen) (.refuse cause' seen')
  | strict {cause : Cause} {seen : Nat} {other : Step τ Unit} (h : cause.isStrict = true) :
      Agrees outline (.refuse cause seen) other

section

variable {limit : Nat} {frames : List Frame} {s : State} {v : Value} {c : Char}

/-- A code unit is one character for the skipper, wherever it stands in a pair. -/
theorem Quote.firstUnit_agrees (q : Quote) (unit : Nat) :
    Agrees Quote.outline (q.firstUnit unit) (.next .plain) := by
  unfold firstUnit
  split
  · exact .strict rfl
  split
  · exact .next rfl
  · exact .next rfl

theorem Quote.secondUnit_agrees (q : Quote) (lead unit : Nat) :
    Agrees Quote.outline (q.secondUnit lead unit) (.next .plain) := by
  unfold secondUnit
  split
  · exact .next rfl
  · exact .strict rfl

/-- The two agree between quotes. -/
theorem Quote.step_agrees (q : Quote) (c : Char) : Agrees Quote.outline (q.step c) (q.outline.step c) := by
  obtain ⟨mode, read⟩ := q
  cases mode with
  | plain =>
    simp only [step, outline, SkipQuote.step]
    split
    · exact .stop
    split
    · exact .next rfl
    split
    · exact .refuse
    · exact .next rfl
  | escape =>
    simp only [step, outline, SkipQuote.step]
    split
    · exact .next rfl
    cases shortEscape? c with
    | some d => exact .next rfl
    | none => exact .refuse
  | hex digits =>
    simp only [step, outline, SkipQuote.step]
    cases Hex.push digits c with
    | more digits => exact .next rfl
    | unit unit => exact firstUnit_agrees _ unit
    | refused seen => exact .refuse
  | lead m =>
    -- the skipper takes this for any character behind another
    simp only [step, outline, SkipQuote.step]
    by_cases hc : c = '\\'
    · subst hc
      exact .next rfl
    · rw [if_neg hc]
      exact .strict rfl
  | leadEscape m =>
    simp only [step, outline, SkipQuote.step]
    split
    · exact .next rfl
    · exact .strict rfl
  | leadHex m digits =>
    simp only [step, outline, SkipQuote.step]
    cases Hex.push digits c with
    | more digits => exact .next rfl
    | unit unit => exact secondUnit_agrees _ m unit
    | refused seen => exact .refuse

theorem Digits.finish_isStrict {d : Digits} {cause : Cause} (h : d.finish = .error cause) :
    cause.isStrict = true := by
  unfold finish at h
  split at h
  · cases h
  · cases h
    rfl

/-- The two agree in a number. -/
theorem Digits.step_agrees (d : Digits) (c : Char) :
    Agrees Digits.place (d.step c) (placeMachine.step d.place c) := by
  simp only [step, placeMachine]
  rcases d.place.step c with place | _ | _
  · dsimp only
    split
    · exact .strict rfl
    · exact .next rfl
  · dsimp only
    split
    · exact .stop
    · rename_i hfinish
      exact .strict (finish_isStrict hfinish)
  · exact .refuse

theorem State.enter_agrees {state : State} :
    Agrees State.outline (State.enter limit frames state) (.next state.outline) := by
  unfold enter
  split
  · exact .next rfl
  · exact .strict rfl

/-- The two agree on the first character of a value. -/
theorem State.begin_agrees (limit : Nat) (frames : List Frame) (c : Char) :
    Agrees State.outline (State.begin limit frames c) (SkipState.begin (brackets frames) c) := by
  unfold State.begin SkipState.begin
  split
  · exact .next rfl
  split
  · exact .next rfl
  split
  · exact .next rfl
  split
  · exact .next rfl
  split
  · exact State.enter_agrees
  split
  · exact State.enter_agrees
  by_cases hminus : c = '-'
  · rw [if_pos (.inl hminus), if_pos hminus]
    subst hminus
    exact .next rfl
  by_cases hdigit : isDigit c = true
  · rw [if_pos (.inr hdigit), if_neg hminus, if_pos hdigit]
    have hplace : (Digits.first c).place = .ofDigit c := if_neg hminus
    exact .next (by rw [State.outline, hplace])
  · rw [if_neg (not_or.mpr ⟨hminus, hdigit⟩), if_neg hminus, if_neg hdigit]
    exact .refuse

/-- The two agree on the first character behind a value. -/
theorem State.follow_agrees (v : Value) (frames : List Frame) (c : Char) :
    Agrees State.outline (State.follow v frames c) (SkipState.follow (brackets frames) c) := by
  rcases frames with _ | ⟨items | ⟨members, key⟩, outer⟩
  · exact .stop
  · simp only [follow, brackets, List.map_cons, Frame.kind, SkipState.follow]
    split
    · exact .next rfl
    split
    · exact .next rfl
    split
    · exact .next rfl
    · exact .refuse
  · simp only [follow, brackets, List.map_cons, Frame.kind, SkipState.follow]
    split
    · exact .next rfl
    split
    · exact .next rfl
    split
    · exact .next rfl
    · exact .refuse

/-- **The reader and the skipper agree** on every character, in every state. -/
theorem State.step_agrees (limit : Nat) (s : State) (c : Char) :
    Agrees State.outline (s.step limit c) (s.outline.step c) := by
  cases s with
  | beforeValue frames =>
    simp only [step, outline, SkipState.step]
    split
    · exact .next rfl
    · exact State.begin_agrees limit frames c
  | firstItem frames =>
    simp only [step, outline, SkipState.step]
    split
    · exact .next rfl
    split
    · exact .next rfl
    · exact State.begin_agrees limit (.list [] :: frames) c
  | nextItem items frames =>
    simp only [step, outline, SkipState.step]
    split
    · exact .next rfl
    by_cases hclose : c = ']'
    · -- where the reader sees a comma too many the skipper misses a value
      subst hclose
      exact .refuse
    · rw [if_neg hclose]
      exact State.begin_agrees limit (.list items :: frames) c
  | firstKey frames =>
    simp only [step, outline, SkipState.step]
    split
    · exact .next rfl
    split
    · exact .next rfl
    split
    · exact .next rfl
    · exact .refuse
  | nextKey members frames =>
    simp only [step, outline, SkipState.step]
    split
    · exact .next rfl
    by_cases hclose : c = '}'
    · subst hclose
      exact .refuse
    · rw [if_neg hclose]
      split
      · exact .next rfl
      · exact .refuse
  | inKey q members frames =>
    have hq := q.step_agrees c
    simp only [step, outline, SkipState.step]
    generalize q.step c = reads at hq
    generalize q.outline.step c = skips at hq
    cases hq with
    | next h => exact .next (by rw [State.outline, h])
    | stop => exact .next rfl
    | refuse => exact .refuse
    | strict h => exact .strict h
  | afterKey members key frames =>
    simp only [step, outline, SkipState.step]
    split
    · exact .next rfl
    split
    · exact .next rfl
    · exact .refuse
  | inWord d rest value frames =>
    simp only [step, outline, SkipState.step]
    split
    · cases rest with
      | nil => exact .next rfl
      | cons d rest => exact .next rfl
    · exact .refuse
  | inText q frames =>
    have hq := q.step_agrees c
    simp only [step, outline, SkipState.step]
    generalize q.step c = reads at hq
    generalize q.outline.step c = skips at hq
    cases hq with
    | next h => exact .next (by rw [State.outline, h])
    | stop => exact .next rfl
    | refuse => exact .refuse
    | strict h => exact .strict h
  | inNumber d frames =>
    have hd := d.step_agrees c
    simp only [step, outline, SkipState.step]
    simp only [placeMachine] at hd
    generalize d.step c = reads at hd
    generalize d.place.step c = move at hd
    rcases move with place | _ | _
    · cases hd with
      | next h => exact .next (by rw [State.outline, h])
      | strict h => exact .strict h
    · cases hd with
      | stop => exact State.follow_agrees _ frames c
      | strict h => exact .strict h
    · cases hd with
      | refuse => exact .refuse
      | strict h => exact .strict h
  | afterValue v frames => exact State.follow_agrees v frames c

/-! ## 3. Many steps -/

/-- **What the skipper goes on through** the reader goes on through, and both come to the same place; or the
    reader refuses it for a cause of its own, whatever comes behind. -/
theorem feed_or_refuses (limit : Nat) {text : List Char} {t : SkipState}
    (h : skipMachine.feed s.outline text = some t) :
    (∃ s', (valueMachine limit).feed s text = some s' ∧ s'.outline = t) ∨
      ∃ cause, cause.isStrict = true ∧ ∀ rest, ∃ fault,
        (valueMachine limit).run s (text ++ rest) = .error fault ∧ fault.cause = cause := by
  induction text generalizing s with
  | nil =>
    rw [Machine.feed_nil, Option.some.injEq] at h
    exact .inl ⟨s, rfl, h⟩
  | cons c text ih =>
    have hagrees := State.step_agrees limit s c
    rw [Machine.feed] at h
    simp only [skipMachine] at h
    simp only [Machine.feed, List.cons_append, Machine.run, valueMachine]
    generalize s.step limit c = reads at hagrees ⊢
    generalize s.outline.step c = skips at hagrees h
    cases hagrees with
    | next ht =>
      subst ht
      exact ih h
    | stop => cases h
    | refuse => cases h
    | @strict cause seen other hstrict => exact .inr ⟨cause, hstrict, fun rest => ⟨_, rfl, rfl⟩⟩

end

/-! ## 4. Whole runs -/

/-- The reader and the skipper stop at the same place, or both refuse the text, or the reader refuses it for a cause
    of its own. -/
inductive EndsAlike {α : Type} : Except Fault (α × List Char) → Except Fault (Unit × List Char) → Prop
  | stop {value : α} {rest : List Char} : EndsAlike (.ok (value, rest)) (.ok ((), rest))
  | refuse {fault fault' : Fault} : EndsAlike (.error fault) (.error fault')
  | strict {fault : Fault} {other : Except Fault (Unit × List Char)} (h : fault.cause.isStrict = true) :
      EndsAlike (.error fault) other

/-- What is made of a value does not change where it ends. -/
theorem EndsAlike.map {α β : Type} {reads : Except Fault (α × List Char)} {skips : Except Fault (Unit × List Char)}
    (h : EndsAlike reads skips) (f : α → β) : EndsAlike (reads.map fun (x, rest) => (f x, rest)) skips := by
  cases h with
  | stop => exact .stop
  | refuse => exact .refuse
  | strict h => exact .strict h

/-- At the end of the text a value is complete for both where no bracket is open. -/
theorem finishAfter_endsAlike (limit : Nat) (value : Value) (frames : List Frame) :
    EndsAlike ((valueMachine limit).run (.afterValue value frames) [])
      (skipMachine.run (.afterValue (brackets frames)) []) := by
  rcases frames with _ | ⟨items | ⟨members, key⟩, outer⟩
  · exact .stop
  · exact .refuse
  · exact .refuse

/-- **The end of the text** does the same to both, in every state. -/
theorem State.run_nil_endsAlike (limit : Nat) (s : State) :
    EndsAlike ((valueMachine limit).run s []) (skipMachine.run s.outline []) := by
  cases s with
  | afterValue value frames => exact finishAfter_endsAlike limit value frames
  | inNumber digits frames =>
    simp only [outline, Machine.run, valueMachine, skipMachine, finish, SkipState.finish]
    by_cases hend : digits.place.isEnd = true
    · rw [if_pos hend, if_pos hend]
      cases hfinish : digits.finish with
      | ok n => exact finishAfter_endsAlike limit (.number n) frames
      | error cause => exact .strict (Digits.finish_isStrict hfinish)
    · rw [if_neg hend, if_neg hend]
      exact .refuse
  | _ => exact .refuse

/-- **The reader and the skipper end alike** on every text, from every state. -/
theorem State.run_endsAlike (limit : Nat) (s : State) (text : List Char) :
    EndsAlike ((valueMachine limit).run s text) (skipMachine.run s.outline text) := by
  induction text generalizing s with
  | nil => exact State.run_nil_endsAlike limit s
  | cons c text ih =>
    have hagrees := State.step_agrees limit s c
    simp only [Machine.run, valueMachine, skipMachine]
    generalize s.step limit c = reads at hagrees
    generalize s.outline.step c = skips at hagrees
    cases hagrees with
    | next h =>
      subst h
      exact ih _
    | stop => exact .stop
    | refuse => exact .refuse
    | strict h => exact .strict h

end LinkPane.Json
