import LinkPane.Proofs.Markup.Skeleton
import LinkPane.Table.View
import Mathlib.Data.List.Forall2

/-!
# Reading a table back

What a table shows can be read off its text, up to an empty text, which is shown as a space:

* `ColumnStyle.css_injective` -- a column style can be read off its declarations;
* `legible_tableView` -- the text of a table is taken apart into what it was put together from;
* `filled_tableView` -- these are the style of the pane, the title, and the cells one after the other;
* `forall₂_of_flatMap` -- what is put together from parts of one length can be cut into them again;
* `Cell.Alike`, `Cells.Alike`, `Layout.Alike` -- what looks the same on a page;
* **`tableHtml_eq_iff`** -- two tables have one text iff their panes have one style and their layouts look the
  same.
-/

namespace LinkPane

open Markup

/-! ## 1. Styles -/

/-- An alignment can be read off its name, and it is known where that ends. -/
theorem Align.name_append {a b : Align} {x y : List Char}
    (h : a.name.toList ++ ';' :: x = b.name.toList ++ ';' :: y) : a = b ∧ x = y := by
  cases a <;> cases b <;> simp_all [Align.name]

/-- The width as it is declared, behind `between` if there is one. -/
def ColumnStyle.widthText (between : List Char) : Option String → List Char
  | none => []
  | some width => between ++ ("width: ".toList ++ (width.toList ++ [';']))

theorem ColumnStyle.widthText_injective {between : List Char} {v w : Option String}
    (h : widthText between v = widthText between w) : v = w := by
  cases v <;> cases w <;> simp_all [widthText, String.toList_inj]

theorem ColumnStyle.toList_css_none (width : Option String) :
    (ColumnStyle.mk width none).css.toList = widthText [] width := by
  cases width <;> simp [css, declarations, declaration, widthText]

theorem ColumnStyle.toList_css_some (width : Option String) (align : Align) :
    (ColumnStyle.mk width (some align)).css.toList =
      "text-align: ".toList ++ (align.name.toList ++ ';' :: widthText [' '] width) := by
  cases width <;> simp [css, declarations, declaration, widthText]

/-- A width alone is not declared like an alignment. -/
theorem ColumnStyle.widthText_ne (width : Option String) (rest : List Char) :
    widthText [] width ≠ "text-align: ".toList ++ rest := by
  cases width <;> simp [widthText]

/-- **A column style can be read off its declarations**, whatever stands in the width. -/
theorem ColumnStyle.css_injective {style other : ColumnStyle} (h : style.css = other.css) : style = other := by
  have hlist : style.css.toList = other.css.toList := congrArg String.toList h
  obtain ⟨width, align⟩ := style
  obtain ⟨width', align'⟩ := other
  cases align with
  | none =>
    cases align' with
    | none =>
      rw [toList_css_none, toList_css_none] at hlist
      rw [widthText_injective hlist]
    | some align' =>
      rw [toList_css_none, toList_css_some] at hlist
      exact absurd hlist (widthText_ne _ _)
  | some align =>
    cases align' with
    | none =>
      rw [toList_css_some, toList_css_none] at hlist
      exact absurd hlist.symm (widthText_ne _ _)
    | some align' =>
      rw [toList_css_some, toList_css_some] at hlist
      obtain ⟨rfl, hwidth⟩ := Align.name_append (List.append_cancel_left hlist)
      rw [widthText_injective hwidth]

/-- The value of a style can be read off its filling. -/
theorem styleFilling_injective {css css' : String}
    (h : escapeQuoted (css.toList ++ [';']) = escapeQuoted (css'.toList ++ [';'])) : css = css' :=
  String.toList_inj.mp (List.append_cancel_right (escapeQuoted_injective h))

/-! ## 2. The pieces of a table -/

section

variable {tag : String}

theorem legible_cell (htag : IsName tag.toList) (cell : Cell) : Legible (cell.view tag) :=
  legible_text ⟨htag, by simp [Attribute.Tame]⟩ cell.text

theorem legible_cells (htag : IsName tag.toList) (cells : Cells) : Legible (cells.view tag) := by
  refine Legible.element (by simp [Piece.Tame, IsName]) (legible_listed fun item hitem => ?_)
  obtain ⟨cell, -, rfl⟩ := List.mem_map.mp hitem
  exact legible_cell htag cell

end

/-- **The text of a table is taken apart** into what it was put together from. -/
theorem legible_tableView (theme : Theme) (inputs : Inputs) : Legible (tableView theme inputs) := by
  have hrows : ∀ item ∈ (Drawn.of (.of theme inputs)).rows.map Prod.snd, Legible item := by
    intro item hitem
    rw [Drawn.rows_of, List.map_map] at hitem
    obtain ⟨row, -, rfl⟩ := List.mem_map.mp hitem
    exact legible_cells (by simp [IsName]) row.cells
  have htitle : Legible (element "div" [.style "text-align: center;"] [.text theme.title]) :=
    legible_text (by simp [Piece.Tame, Attribute.Tame, IsName]) theme.title
  have hhead : Legible (element "thead" [] ((headerCells theme inputs).view "th")) :=
    .element (by simp [Piece.Tame, IsName]) (legible_cells (by simp [IsName]) _)
  have hbody : Legible (element "tbody" [] (listed ((Drawn.of (.of theme inputs)).rows.map Prod.snd))) :=
    .element (by simp [Piece.Tame, IsName]) (legible_listed hrows)
  have hopen : (Piece.opening "table" [.plain "class" "table"]).Tame := by
    simp [Piece.Tame, Attribute.Tame, IsName]
  have htable := (hhead.append hbody).element hopen
  exact (htitle.append htable).element (by simp [Piece.Tame, Attribute.Tame, IsName])

/-- What is filled in for a cell. -/
def Cell.fillings (cell : Cell) : List Filling :=
  [.style (escapeQuoted (cell.style.css.toList ++ [';'])), .text (escape (visible cell.text.toList))]

/-- What is filled in for a row of cells. -/
def Cells.fillings (cells : Cells) : List Filling :=
  cells.toList.flatMap Cell.fillings

theorem Cells.length_fillings (cells : Cells) : cells.fillings.length = 8 := rfl

theorem filled_cell (tag : String) (cell : Cell) : filled (cell.view tag) = cell.fillings := by
  simp [Cell.view, Cell.fillings, Attribute.fillings, Piece.fillings]

theorem filled_cells (tag : String) (cells : Cells) : filled (cells.view tag) = cells.fillings := by
  simp [Cells.view, Cells.fillings, List.flatMap_map, filled_cell]

/-- The fillings of a table: the style of the pane, the title, and the cells one after the other. -/
theorem filled_tableView (theme : Theme) (inputs : Inputs) :
    filled (tableView theme inputs) =
      .style (escapeQuoted (theme.pane.css.toList ++ [';'])) ::
        .style (escapeQuoted ("text-align: center;".toList ++ [';'])) ::
        .text (escape (visible (Layout.of theme inputs).title.toList)) ::
        ((Layout.of theme inputs).header.fillings ++
          (Layout.of theme inputs).rows.flatMap fun row => row.cells.fillings) := by
  rw [tableView, Drawn.view, Drawn.title_of, Drawn.header_of, Drawn.rows_of]
  simp [Attribute.fillings, Piece.fillings, List.flatMap_map, filled_cells]

/-! ## 3. What looks the same -/

/-- What is put together from parts of one length can be cut into them again. -/
theorem forall₂_of_flatMap {α β : Type} {f : α → List β} {n : Nat} (hn : 0 < n) (hf : ∀ x, (f x).length = n)
    {xs ys : List α} (h : xs.flatMap f = ys.flatMap f) : List.Forall₂ (fun x y => f x = f y) xs ys := by
  have hne : ∀ x rest, [] ≠ f x ++ rest := fun x rest heq => by
    have hlength := congrArg List.length heq
    rw [List.length_append, hf] at hlength
    simp at hlength
    omega
  induction xs generalizing ys with
  | nil =>
    cases ys with
    | nil => exact .nil
    | cons y ys => exact absurd h (hne y _)
  | cons x xs ih =>
    cases ys with
    | nil => exact absurd h.symm (hne x _)
    | cons y ys =>
      rw [List.flatMap_cons, List.flatMap_cons] at h
      obtain ⟨hhead, htail⟩ := List.append_inj h (by rw [hf, hf])
      exact .cons hhead (ih htail)

/-- Parts that are the same make up the same. -/
theorem flatMap_of_forall₂ {α β : Type} {f : α → List β} {xs ys : List α}
    (h : List.Forall₂ (fun x y => f x = f y) xs ys) : xs.flatMap f = ys.flatMap f := by
  induction h with
  | nil => rfl
  | cons hhead _ ih => rw [List.flatMap_cons, List.flatMap_cons, hhead, ih]

/-- Cells that look the same: an empty text looks like a space. -/
def Cell.Alike (cell other : Cell) : Prop :=
  visible cell.text.toList = visible other.text.toList ∧ cell.style = other.style

/-- Rows of cells that look the same, cell by cell. -/
structure Cells.Alike (cells other : Cells) : Prop where
  kind : cells.kind.Alike other.kind
  source : cells.source.Alike other.source
  separator : cells.separator.Alike other.separator
  target : cells.target.Alike other.target

/-- Layouts that look the same, row by row. -/
structure Layout.Alike (layout other : Layout) : Prop where
  title : visible layout.title.toList = visible other.title.toList
  header : layout.header.Alike other.header
  rows : List.Forall₂ (fun row row' => row.cells.Alike row'.cells) layout.rows other.rows

section

variable {tag : String} {cell other : Cell} {cells cells' : Cells}

/-- What a cell looks like can be read off its fillings, -/
theorem Cell.alike_of_fillings (h : cell.fillings = other.fillings) : cell.Alike other := by
  simp only [Cell.fillings, List.cons.injEq, Filling.style.injEq, Filling.text.injEq, and_true] at h
  exact ⟨escape_injective h.2, ColumnStyle.css_injective (styleFilling_injective h.1)⟩

/-- and so can what a row of cells looks like. -/
theorem Cells.alike_of_fillings (h : cells.fillings = cells'.fillings) : cells.Alike cells' := by
  have hcells := forall₂_of_flatMap (n := 2) (by decide) (fun _ => rfl) h
  simp only [toList, List.forall₂_cons, List.forall₂_nil_left_iff, and_true] at hcells
  obtain ⟨hkind, hsource, hseparator, htarget⟩ := hcells
  exact ⟨Cell.alike_of_fillings hkind, Cell.alike_of_fillings hsource, Cell.alike_of_fillings hseparator,
    Cell.alike_of_fillings htarget⟩

theorem Cell.Alike.render_view (h : cell.Alike other) : render (cell.view tag) = render (other.view tag) := by
  obtain ⟨htext, hstyle⟩ := h
  simp only [Cell.view, render_element, render_cons, Piece.render, htext, hstyle]

theorem Cells.Alike.render_view (h : cells.Alike cells') :
    render (cells.view tag) = render (cells'.view tag) := by
  simp only [Cells.view, render_element, render_listed, toList, List.map_cons, List.map_nil, List.flatMap_cons,
    h.kind.render_view, h.source.render_view, h.separator.render_view, h.target.render_view]

end

/-- Layouts that look the same are written the same in panes of one style. -/
theorem Layout.Alike.render_view {layout other : Layout} (h : layout.Alike other) {pane pane' : PaneStyle}
    (hpane : pane.css = pane'.css) :
    render ((Drawn.of layout).view pane) = render ((Drawn.of other).view pane') := by
  have hrows : (layout.rows.flatMap fun row => render (row.cells.view "td")) =
      other.rows.flatMap fun row => render (row.cells.view "td") :=
    flatMap_of_forall₂ (h.rows.imp fun _ _ hrow => hrow.render_view)
  have hopen : (Piece.opening "div" [.plain "class" "link-inspection-pane", .style pane.css]).render =
      (Piece.opening "div" [.plain "class" "link-inspection-pane", .style pane'.css]).render := by
    rw [hpane]
  have htitle : render [.text layout.title] = render [.text other.title] := by
    rw [render_cons, render_cons, Piece.render, Piece.render, h.title]
  simp only [Drawn.view, Drawn.title_of, Drawn.header_of, Drawn.rows_of, List.map_map, render_element,
    render_append, render_listed, List.flatMap_map, Function.comp_apply, hopen, htitle, h.header.render_view,
    hrows]

/-- **A table loses nothing but the difference between an empty text and a space.** Two tables have one text iff
    their panes have one style, they have as many rows, and their titles, their headers and their rows look the
    same, cell by cell. -/
theorem tableHtml_eq_iff (theme theme' : Theme) (a b : Inputs) :
    tableHtml theme a = tableHtml theme' b ↔
      theme.pane.css = theme'.pane.css ∧
      (Layout.of theme a).rows.length = (Layout.of theme' b).rows.length ∧
      (Layout.of theme a).Alike (.of theme' b) := by
  constructor
  · intro h
    have hfilled : filled (tableView theme a) = filled (tableView theme' b) := by
      rw [← (legible_tableView theme a).fillings_eq, ← (legible_tableView theme' b).fillings_eq]
      exact congrArg fillings h
    rw [filled_tableView, filled_tableView] at hfilled
    simp only [List.cons.injEq, Filling.style.injEq, Filling.text.injEq, true_and] at hfilled
    obtain ⟨hpane, htitle, hcells⟩ := hfilled
    obtain ⟨hheader, hrows⟩ := List.append_inj hcells ((Cells.length_fillings _).trans (Cells.length_fillings _).symm)
    have hforall := (forall₂_of_flatMap (by decide) (fun row => row.cells.length_fillings) hrows).imp
      fun _ _ => Cells.alike_of_fillings
    exact ⟨styleFilling_injective hpane, hforall.length_eq, escape_injective htitle,
      Cells.alike_of_fillings hheader, hforall⟩
  · rintro ⟨hpane, -, halike⟩
    exact congrArg String.ofList (halike.render_view hpane)

end LinkPane
