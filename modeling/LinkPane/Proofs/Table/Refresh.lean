import LinkPane.Table.Live

/-!
# A table that is brought up to date is a new one

What a table keeps from one refresh to the next -- its inputs, its layout, the body rows drawn under their
keys -- leaves no trace in what it shows:

* `Table.showing` -- the table that shows some inputs, whatever it showed before;
* `Drawn.update_of` -- rows kept by their keys are the rows that would be drawn: under one theme the key of a
  row decides its cells;
* **`Table.refresh_showing`** -- a refresh takes the table of the inputs before to the table of the inputs
  now, and the observer is told of them iff they are other inputs.
-/

namespace LinkPane

open Markup

variable {theme : Theme} {observed due : Bool} {before current : Inputs}

/-! ## 1. Rows under their keys -/

/-- Where every entry is what `f` makes of its key, so is the entry found. -/
theorem lookup_getD_of_forall {f : RowKey → List Piece} {entries : List (RowKey × List Piece)}
    (h : ∀ entry ∈ entries, entry.2 = f entry.1) (key : RowKey) :
    (entries.lookup key).getD (f key) = f key := by
  induction entries with
  | nil => rfl
  | cons entry entries ih =>
    obtain ⟨k, pieces⟩ := entry
    obtain ⟨hk, hrest⟩ := List.forall_mem_cons.mp h
    by_cases he : key = k
    · subst he
      rw [List.lookup_cons_self]
      exact hk
    · have hne : (key == k) = false := beq_eq_false_iff_ne.mpr he
      rw [List.lookup_cons, hne]
      exact ih hrest

/-- The cells of a row under a theme are those of the link in its key. -/
theorem Row.cells_of_key {row : Row} (h : row ∈ (Layout.of theme before).rows) :
    row.cells = linkCells theme row.key.link := by
  rw [Layout.rows_of, List.mem_mapIdx] at h
  obtain ⟨index, _, rfl⟩ := h
  rfl

/-- The rows drawn of a layout are those of the links in their keys. -/
theorem Drawn.row_of_key {entry : RowKey × List Piece}
    (h : entry ∈ (Drawn.of (.of theme before)).rows) :
    entry.2 = (linkCells theme entry.1.link).view "td" := by
  rw [Drawn.rows_of] at h
  obtain ⟨row, hrow, rfl⟩ := List.mem_map.mp h
  rw [Row.cells_of_key hrow]

/-- **A row that is kept is the row that would be drawn.** -/
theorem Row.draw_of {row : Row} (h : row ∈ (Layout.of theme current).rows) :
    row.draw (Drawn.of (.of theme before)).rows = (row.key, row.cells.view "td") := by
  rw [Row.draw, Row.cells_of_key h]
  exact congrArg (Prod.mk row.key)
    (lookup_getD_of_forall (f := fun key => (linkCells theme key.link).view "td")
      (fun _ => Drawn.row_of_key) row.key)

/-- A layout drawn over another one of the same theme is drawn as if nothing had been there. -/
theorem Drawn.update_of (theme : Theme) (before current : Inputs) :
    (Drawn.of (.of theme before)).update (.of theme current) = Drawn.of (.of theme current) := by
  have hrows : (Layout.of theme current).rows.map (Row.draw (Drawn.of (.of theme before)).rows) =
      (Drawn.of (.of theme current)).rows := by
    rw [Drawn.rows_of]
    exact List.map_congr_left fun _ => Row.draw_of
  rw [Drawn.update, hrows]
  rfl

/-! ## 2. Tables -/

/-- The table that shows `inputs`. -/
def Table.showing (theme : Theme) (observed : Bool) (inputs : Inputs) : Table where
  theme := theme
  observed := observed
  inputs := some inputs
  layout := some (.of theme inputs)
  drawn := .of (.of theme inputs)

@[simp] theorem Table.view_showing (theme : Theme) (observed : Bool) (inputs : Inputs) :
    (Table.showing theme observed inputs).view = tableView theme inputs := rfl

@[simp] theorem Table.html_showing (theme : Theme) (observed : Bool) (inputs : Inputs) :
    (Table.showing theme observed inputs).html = tableHtml theme inputs := rfl

/-- The first refresh shows the inputs and tells the observer of them. -/
theorem Table.refresh_new (theme : Theme) (observed due : Bool) (current : Inputs) :
    (Table.new theme observed).refresh due current =
      (.showing theme observed current, if observed then [current] else []) := by
  cases observed <;> rfl

/-- **A refresh shows the inputs of now and tells the observer of them iff they are others than before.**
    A table that is not due must be left with the inputs it shows. -/
theorem Table.refresh_showing (h : due = false → current = before) :
    (Table.showing theme observed before).refresh due current =
      (.showing theme observed current,
        if decide (current ≠ before) && observed then [current] else []) := by
  have hinputs : Memo.ask (some before) due (fun _ => current) = (current, decide (current ≠ before)) :=
    Memo.ask_some h
  have hlayout : Memo.ask (some (Layout.of theme before)) (decide (current ≠ before))
      (fun _ => Layout.of theme current) =
      (.of theme current, decide (Layout.of theme current ≠ .of theme before)) := by
    refine Memo.ask_some fun hsame => ?_
    have : current = before := by simpa using hsame
    rw [this]
  -- where the layout is as before, what is drawn of it is so too
  have hdrawn : (if decide (Layout.of theme current ≠ .of theme before) = true then
      (Drawn.of (.of theme before)).update (.of theme current) else Drawn.of (.of theme before)) =
      Drawn.of (.of theme current) := by
    split
    · exact Drawn.update_of theme before current
    · rename_i hsame
      have : Layout.of theme current = .of theme before := by simpa using hsame
      rw [this]
  simp only [Table.refresh, Table.showing, hinputs, hlayout, hdrawn]

end LinkPane
