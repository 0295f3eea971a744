import Mathlib.Data.List.Sort
import LinkPane.Proofs.Table.History

/-!
# Writes made in fewer steps

The same writes may be made in many steps or in few. Every step draws the inputs behind some of the writes, so
a run is told by the places where the sequence of writes is cut:

* `cuts`, `Coarser` -- where steps cut their writes; steps that make the same writes and have fewer cuts;
* `history_eq_map` -- the history of the inputs, read off at the cuts;
* `sublist_destutter` -- what is left of a list without its repetitions holds every part of it that has none;
* **`destutter_map_sublist`** -- where there are fewer cuts, less is told, in the same order;
* **`Pane.run_coarser`** -- a run in fewer steps tells a part of what the other one tells, with the same
  beginning and end, and ends with the same table.
-/

namespace LinkPane

variable {inputs : Inputs} {steps coarse fine : List (List Write)}

/-! ## 1. Cuts -/

/-- How many writes have been made at first and behind each step. -/
def cuts (steps : List (List Write)) : List Nat :=
  (List.range (steps.length + 1)).map fun k => (steps.take k).flatten.length

/-- The same writes, cut at some of the places only. -/
structure Coarser (coarse fine : List (List Write)) : Prop where
  writes : coarse.flatten = fine.flatten
  cuts : LinkPane.cuts coarse ⊆ LinkPane.cuts fine

/-- The writes of the first steps are the first writes of all steps. -/
theorem flatten_take (steps : List (List Write)) (k : Nat) :
    (steps.take k).flatten = steps.flatten.take (steps.take k).flatten.length := by
  have hsplit : steps.flatten = (steps.take k).flatten ++ (steps.drop k).flatten := by
    rw [← List.flatten_append, List.take_append_drop]
  rw [hsplit, List.take_left]

/-- **A history is read off at the cuts.** -/
theorem history_eq_map (inputs : Inputs) (steps : List (List Write)) :
    history inputs steps = (cuts steps).map fun n => writeAll inputs (steps.flatten.take n) := by
  rw [history, cuts, List.map_map]
  refine List.map_congr_left fun k _ => ?_
  rw [inputsAfter, flatten_take]
  rfl

/-- The cuts come in order. -/
theorem pairwise_cuts (steps : List (List Write)) : (cuts steps).Pairwise (· ≤ ·) := by
  refine List.pairwise_map.mpr (List.pairwise_le_range.imp fun {j k} hjk => ?_)
  have hprefix : steps.take j <+: steps.take k := List.take_prefix_take_left hjk
  obtain ⟨between, hbetween⟩ := hprefix
  rw [← hbetween, List.flatten_append, List.length_append]
  exact Nat.le_add_right _ _

/-! ## 2. Repetitions -/

section

variable {α : Type} [DecidableEq α] {l part : List α}

/-- From its first entry on, a list without its repetitions holds every part of the list that has none. -/
theorem sublist_destutter' {first : α} (hchain : part.IsChain (· ≠ ·))
    (h : part.Sublist (first :: l)) : part.Sublist (l.destutter' (· ≠ ·) first) := by
  induction l generalizing first part with
  | nil => exact h
  | cons second l ih =>
    by_cases hsame : first = second
    · subst hsame
      rw [List.destutter'_cons_neg _ (not_not.mpr rfl)]
      -- the part cannot have both of the equal entries
      refine ih hchain ?_
      cases h with
      | cons _ h => exact h
      | cons_cons _ h =>
        cases h with
        | cons _ h => exact h.cons_cons first
        | cons_cons _ h => exact absurd rfl (List.isChain_cons_cons.mp hchain).1
    · rw [List.destutter'_cons_pos _ hsame]
      cases h with
      | cons _ h => exact (ih hchain h).cons first
      | cons_cons _ h => exact (ih hchain.tail h).cons_cons first

theorem sublist_destutter (hchain : part.IsChain (· ≠ ·)) (h : part.Sublist l) :
    part.Sublist (l.destutter (· ≠ ·)) := by
  cases l with
  | nil => exact h
  | cons first l => exact sublist_destutter' hchain h

/-- **Fewer cuts tell a part of it.** What is told at the fewer cuts is read off at cuts that are all different,
    so it is a part of what is read off at all of them; and no entry of it is repeated. -/
theorem destutter_map_sublist {few many : List Nat} (read : Nat → α) (hfew : few.Pairwise (· ≤ ·))
    (hmany : many.Pairwise (· ≤ ·)) (h : few ⊆ many) :
    ((few.map read).destutter (· ≠ ·)).Sublist ((many.map read).destutter (· ≠ ·)) := by
  have hchain : ((few.map read).destutter (· ≠ ·)).IsChain (· ≠ ·) := List.isChain_destutter _ _
  obtain ⟨kept, hkept, heq⟩ := List.sublist_map_iff.mp (List.destutter_sublist (· ≠ ·) (few.map read))
  rw [heq] at hchain ⊢
  have hsorted : kept.Pairwise (· ≤ ·) := hfew.sublist hkept
  have hless : kept.IsChain (· < ·) := List.isChain_iff_getElem.mpr fun i hi => by
    have hle := List.isChain_iff_getElem.mp hsorted.isChain i hi
    have hne := List.isChain_iff_getElem.mp ((List.isChain_map read).mp hchain) i hi
    exact Nat.lt_of_le_of_ne hle fun heq => hne (congrArg read heq)
  have hnodup : kept.Nodup := hless.pairwise.imp Nat.ne_of_lt
  have hsubset : kept ⊆ many := fun _ hmem => h (hkept.subset hmem)
  have hplaces : kept.Sublist many :=
    List.sublist_of_subperm_of_pairwise (List.subperm_of_subset hnodup hsubset) hsorted hmany
  exact sublist_destutter hchain (hplaces.map read)

end

/-! ## 3. Runs -/

/-- All that the observer of a table is told in some steps. -/
def Pane.told (own : Option Theme) (around : List Theme) (inputs : Inputs) (steps : List (List Write)) :
    List Inputs :=
  ((Pane.placed own around true inputs).run steps).flatMap Drawing.observed

/-- What the signals of a table hold behind some steps. -/
def Pane.held (own : Option Theme) (around : List Theme) (inputs : Inputs) (steps : List (List Write)) :
    Inputs :=
  ((Pane.placed own around true inputs).draw.1.after steps).inputs

/-- The table behind some steps, as it is drawn. -/
def Pane.lastHtml (own : Option Theme) (around : List Theme) (inputs : Inputs) (steps : List (List Write)) :
    Option String :=
  (((Pane.placed own around true inputs).run steps).getLast?).map Drawing.html

section

variable (own : Option Theme) (around : List Theme) (inputs : Inputs) (steps : List (List Write))

theorem Pane.told_eq : told own around inputs steps =
    ((cuts steps).map fun n => writeAll inputs (steps.flatten.take n)).destutter (· ≠ ·) := by
  rw [told, placed, observed_run, history_eq_map]

/-- The first thing told is what the table is put on the page with. -/
theorem Pane.head?_told : (told own around inputs steps).head? = some inputs := by
  rw [told, placed, run, draw_new, List.flatMap_cons]
  rfl

/-- Behind all steps the signals hold what all writes make of the inputs. -/
theorem Pane.held_eq : held own around inputs steps = writeAll inputs steps.flatten := by
  rw [held, placed, draw_new, after_showing]
  rfl

/-- The last entry of a history is what all writes make of the inputs. -/
theorem getLast?_history_flatten : (history inputs steps).getLast? = some (writeAll inputs steps.flatten) := by
  rw [getLast?_history, inputsAfter, List.take_length]

theorem Pane.getLast?_told : (told own around inputs steps).getLast? = some (held own around inputs steps) := by
  rw [told, placed, observed_run, getLast?_destutter, getLast?_history_flatten, held_eq]

theorem Pane.lastHtml_eq : lastHtml own around inputs steps =
    some (tableHtml (.choose own around) (held own around inputs steps)) := by
  rw [lastHtml, ← List.getLast?_map, placed, html_run, List.getLast?_map, getLast?_history_flatten, held_eq]
  rfl

end

/-- **Writes that are made in fewer steps** are told in part, in the same order and with nothing new; both runs
    first tell what the table was put on the page with, and last what the signals hold in the end, which is the
    same for both; and the table that is shown in the end is the same, too. -/
theorem Pane.run_coarser (own : Option Theme) (around : List Theme) (inputs : Inputs)
    (h : Coarser coarse fine) :
    (told own around inputs coarse).Sublist (told own around inputs fine) ∧
    (told own around inputs coarse).head? = some inputs ∧
    (told own around inputs fine).head? = some inputs ∧
    (told own around inputs coarse).getLast? = some (held own around inputs coarse) ∧
    (told own around inputs fine).getLast? = some (held own around inputs fine) ∧
    held own around inputs coarse = held own around inputs fine ∧
    ∃ html, lastHtml own around inputs coarse = some html ∧ lastHtml own around inputs fine = some html := by
  have hheld : held own around inputs coarse = held own around inputs fine := by
    rw [held_eq, held_eq, h.writes]
  refine ⟨?_, head?_told .., head?_told .., getLast?_told .., getLast?_told .., hheld, _, lastHtml_eq .., ?_⟩
  · rw [told_eq, told_eq, h.writes]
    exact destutter_map_sublist _ (pairwise_cuts coarse) (pairwise_cuts fine) h.cuts
  · rw [lastHtml_eq, hheld]

/-- A label that is changed and changed back: in two steps both changes are told, and in one step none is. -/
theorem Pane.run_coarser_back :
    Coarser [[.setSource "A", .setSource "S"]] [[.setSource "A"], [.setSource "S"]] ∧
    told none [] ⟨"S", "T", []⟩ [[.setSource "A", .setSource "S"]] = [⟨"S", "T", []⟩] ∧
    told none [] ⟨"S", "T", []⟩ [[.setSource "A"], [.setSource "S"]] =
      [⟨"S", "T", []⟩, ⟨"A", "T", []⟩, ⟨"S", "T", []⟩] ∧
    (told none [] ⟨"S", "T", []⟩ [[.setSource "A", .setSource "S"]]).Sublist
      (told none [] ⟨"S", "T", []⟩ [[.setSource "A"], [.setSource "S"]]) := by
  have h : Coarser [[.setSource "A", .setSource "S"]] [[.setSource "A"], [.setSource "S"]] :=
    ⟨by decide, by decide⟩
  refine ⟨h, ?_, ?_, (Pane.run_coarser none [] ⟨"S", "T", []⟩ h).1⟩
  · rw [told_eq]
    decide
  · rw [told_eq]
    decide

end LinkPane
