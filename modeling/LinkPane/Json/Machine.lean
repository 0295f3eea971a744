import LinkPane.Json.Fault

/-!
# Readers that are fed one character at a time

A `Machine` has states; `step` says what the next character does in a state and `finish` what the end of the
text does. A machine never looks behind the character it is fed: it goes on, it stops in front of that
character with what it has read, or it refuses it, having looked at some octets of it.

* `Machine.run` -- the reader that a machine is, from any of its states;
* `Machine.feed` -- the state behind some characters;
* `Machine.run_append` -- a run passes through the state behind any beginning of the text;
* `Machine.fed_of_run` -- a value was read where the machine stopped or the text ended;
* `Machine.fed_of_run_error` -- a fault was found at the end of the text, or at a character;
* `Machine.feed_keeps` -- what every step keeps holds behind any characters.
-/

namespace LinkPane.Json

/-- What a character does to a machine. -/
inductive Step (σ α : Type)
  /-- The character is read. -/
  | next (state : σ)
  /-- The value ended before the character. -/
  | stop (value : α)
  /-- The character is refused; `seen` of its octets were looked at. -/
  | refuse (cause : Cause) (seen : Nat)

/-- A reader by its states. -/
structure Machine (σ α : Type) where
  step : σ → Char → Step σ α
  finish : σ → Except Cause α

variable {σ α : Type}

/-- Reads from a state on. The end of the text is behind all of it. -/
def Machine.run (m : Machine σ α) : σ → Reader α
  | state, [] =>
    match m.finish state with
    | .ok value => .ok (value, [])
    | .error cause => .error (.before cause [])
  | state, c :: rest =>
    match m.step state c with
    | .next state => m.run state rest
    | .stop value => .ok (value, c :: rest)
    | .refuse cause seen => .error (.after cause seen (c :: rest))

/-- The state behind some characters, if the machine goes on through all of them. -/
def Machine.feed (m : Machine σ α) : σ → List Char → Option σ
  | state, [] => some state
  | state, c :: rest =>
    match m.step state c with
    | .next state => m.feed state rest
    | _ => none

@[simp] theorem Machine.feed_nil (m : Machine σ α) (state : σ) : m.feed state [] = some state := rfl

theorem Machine.feed_cons (m : Machine σ α) {state next : σ} {c : Char} (h : m.step state c = .next next)
    (rest : List Char) : m.feed state (c :: rest) = m.feed next rest := by
  rw [feed, h]

/-- A run goes on from the state behind the characters fed. -/
theorem Machine.run_append (m : Machine σ α) {state state' : σ} {begin : List Char}
    (h : m.feed state begin = some state') (rest : List Char) :
    m.run state (begin ++ rest) = m.run state' rest := by
  induction begin generalizing state with
  | nil =>
    rw [feed_nil, Option.some.injEq] at h
    rw [h, List.nil_append]
  | cons c begin ih =>
    rw [feed] at h
    rw [List.cons_append, run]
    split at h
    · rename_i next hstep
      rw [hstep]
      exact ih h
    · exact absurd h (by simp)

/-- Feeding characters one after the other. -/
theorem Machine.feed_append (m : Machine σ α) {state state' : σ} {begin : List Char}
    (h : m.feed state begin = some state') (more : List Char) :
    m.feed state (begin ++ more) = m.feed state' more := by
  induction begin generalizing state with
  | nil =>
    rw [feed_nil, Option.some.injEq] at h
    rw [h, List.nil_append]
  | cons c begin ih =>
    rw [feed] at h
    rw [List.cons_append, feed]
    split at h
    · exact ih h
    · exact absurd h (by simp)

/-- A run that gives a value has fed the machine the text in front of the rest. -/
theorem Machine.fed_of_run (m : Machine σ α) {state : σ} {text rest : List Char} {value : α}
    (h : m.run state text = .ok (value, rest)) :
    ∃ read state', text = read ++ rest ∧ m.feed state read = some state' ∧
      ((rest = [] ∧ m.finish state' = .ok value) ∨
        ∃ c more, rest = c :: more ∧ m.step state' c = .stop value) := by
  induction text generalizing state with
  | nil =>
    rw [run] at h
    split at h
    · rename_i hfinish
      cases h
      exact ⟨[], state, rfl, rfl, .inl ⟨rfl, hfinish⟩⟩
    · cases h
  | cons c text ih =>
    rw [run] at h
    split at h
    · rename_i next hnext
      obtain ⟨read, state', rfl, hfeed, hend⟩ := ih h
      exact ⟨c :: read, state', rfl, (feed_cons m hnext read).trans hfeed, hend⟩
    · rename_i hstop
      cases h
      exact ⟨[], state, rfl, rfl, .inr ⟨c, text, rfl, hstop⟩⟩
    · cases h

/-- A run that fails has fed the machine the text in front of the character that it refuses, or all of it. -/
theorem Machine.fed_of_run_error (m : Machine σ α) {state : σ} {text : List Char} {fault : Fault}
    (h : m.run state text = .error fault) :
    ∃ read state', m.feed state read = some state' ∧
      ((text = read ∧ m.finish state' = .error fault.cause ∧ fault.unseen = 0) ∨
        ∃ c rest seen, text = read ++ c :: rest ∧ m.step state' c = .refuse fault.cause seen ∧
          fault = .after fault.cause seen (c :: rest)) := by
  induction text generalizing state with
  | nil =>
    rw [run] at h
    split at h
    · cases h
    · rename_i hfinish
      cases h
      exact ⟨[], state, rfl, .inl ⟨rfl, hfinish, rfl⟩⟩
  | cons c text ih =>
    rw [run] at h
    split at h
    · rename_i next hnext
      obtain ⟨read, state', hfeed, hend⟩ := ih h
      refine ⟨c :: read, state', (feed_cons m hnext read).trans hfeed, ?_⟩
      rcases hend with ⟨rfl, hfinish, hunseen⟩ | ⟨d, rest, seen, rfl, hstep, hfault⟩
      · exact .inl ⟨rfl, hfinish, hunseen⟩
      · exact .inr ⟨d, rest, seen, rfl, hstep, hfault⟩
    · cases h
    · rename_i hrefuse
      cases h
      exact ⟨[], state, rfl, .inr ⟨c, text, _, rfl, hrefuse, rfl⟩⟩

/-- What is fed in two parts is fed one after the other. -/
theorem Machine.feed_of_append (m : Machine σ α) {state state' : σ} {begin more : List Char}
    (h : m.feed state (begin ++ more) = some state') :
    ∃ between, m.feed state begin = some between ∧ m.feed between more = some state' := by
  induction begin generalizing state with
  | nil => exact ⟨state, rfl, h⟩
  | cons c begin ih =>
    rw [List.cons_append, feed] at h
    split at h
    · rename_i next hnext
      obtain ⟨between, hbegin, hmore⟩ := ih h
      exact ⟨between, (feed_cons m hnext begin).trans hbegin, hmore⟩
    · cases h

/-- What every step keeps, of the characters read and the state, holds behind any characters. -/
theorem Machine.feed_keeps (m : Machine σ α) {Holds : List Char → σ → Prop}
    (keeps : ∀ {text state c next}, Holds text state → m.step state c = .next next → Holds (text ++ [c]) next)
    {text more : List Char} {state state' : σ} (h : Holds text state)
    (hfeed : m.feed state more = some state') : Holds (text ++ more) state' := by
  induction more generalizing text state with
  | nil =>
    rw [feed_nil, Option.some.injEq] at hfeed
    rwa [List.append_nil, ← hfeed]
  | cons c more ih =>
    rw [feed] at hfeed
    split at hfeed
    · rename_i next hnext
      have := ih (keeps h hnext) hfeed
      rwa [List.append_assoc] at this
    · cases hfeed

/-- The same of the state alone. -/
theorem Machine.feed_keeps_state (m : Machine σ α) {Holds : σ → Prop}
    (keeps : ∀ {state c next}, Holds state → m.step state c = .next next → Holds next) {text : List Char}
    {state state' : σ} (h : Holds state) (hfeed : m.feed state text = some state') : Holds state' := by
  induction text generalizing state with
  | nil =>
    rw [feed_nil, Option.some.injEq] at hfeed
    exact hfeed ▸ h
  | cons c text ih =>
    rw [feed] at hfeed
    split at hfeed
    · rename_i next hnext
      exact ih (keeps h hnext) hfeed
    · cases hfeed

end LinkPane.Json
