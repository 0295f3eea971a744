/-!
# Values that follow others

A page is drawn from values that are written to and from values that are computed out of them. A write
computes nothing: whoever follows the value is only due to look again, and does so once, however often the
value was written to in between.

* `Signal` -- a value that is written to, and whether it was since its followers last looked;
* `Memo` -- a value that is computed from others and kept;
* `Memo.ask` -- asks for a memo. It is computed again only if it is due, and its own followers are due only
  if it is another value than before.
-/

namespace LinkPane

variable {α : Type}

/-! ## 1. Signals -/

/-- A value that is written to. -/
structure Signal (α : Type) where
  value : α
  written : Bool
  deriving DecidableEq, Repr

/-- A signal that nobody has written to. -/
def Signal.new (value : α) : Signal α := ⟨value, false⟩

/-- Writes to a signal. A value that is written again counts as written. -/
def Signal.update (signal : Signal α) (change : α → α) : Signal α := ⟨change signal.value, true⟩

/-- Puts a value in place of the one that is there. -/
def Signal.set (signal : Signal α) (value : α) : Signal α := signal.update fun _ => value

/-- All followers have looked. -/
def Signal.settle (signal : Signal α) : Signal α := { signal with written := false }

@[simp] theorem Signal.value_new (value : α) : (Signal.new value).value = value := rfl

@[simp] theorem Signal.value_update (signal : Signal α) (change : α → α) :
    (signal.update change).value = change signal.value := rfl

@[simp] theorem Signal.value_set (signal : Signal α) (value : α) : (signal.set value).value = value := rfl

@[simp] theorem Signal.value_settle (signal : Signal α) : signal.settle.value = signal.value := rfl

@[simp] theorem Signal.written_new (value : α) : (Signal.new value).written = false := rfl

@[simp] theorem Signal.written_update (signal : Signal α) (change : α → α) :
    (signal.update change).written = true := rfl

@[simp] theorem Signal.written_set (signal : Signal α) (value : α) : (signal.set value).written = true := rfl

@[simp] theorem Signal.written_settle (signal : Signal α) : signal.settle.written = false := rfl

/-! ## 2. Memos -/

/-- A value that is computed from others; there is none before it is first asked for. -/
abbrev Memo (α : Type) : Type := Option α

/-- Asks for a memo: its value, and whether that is another one than before. The computation is given the
    value kept so far. -/
def Memo.ask [DecidableEq α] (memo : Memo α) (due : Bool) (compute : Option α → α) : α × Bool :=
  match memo with
  | none => (compute none, true)
  | some kept =>
    if due then (compute (some kept), decide (compute (some kept) ≠ kept)) else (kept, false)

@[simp] theorem Memo.ask_none [DecidableEq α] (due : Bool) (compute : Option α → α) :
    Memo.ask none due compute = (compute none, true) := rfl

/-- A memo that is not due may be left alone as long as it is what would be computed. -/
theorem Memo.ask_some [DecidableEq α] {kept : α} {due : Bool} {compute : Option α → α}
    (h : due = false → compute (some kept) = kept) :
    Memo.ask (some kept) due compute = (compute (some kept), decide (compute (some kept) ≠ kept)) := by
  cases due with
  | true => rfl
  | false => simp [ask, h rfl]

end LinkPane
