import LinkPane.Markup
import LinkPane.Table.Layout

/-!
# The view of a table

* `Drawn` -- what is on the page of a layout; a body row is kept by its key;
* `Drawn.update` -- draws a layout over what is there: title and header are drawn anew, and so is a body row
  whose key was not there. A row whose key was there stays as it was drawn;
* `Drawn.view` -- what is drawn, in its pane;
* `tableView` -- inputs under a theme, drawn afresh, `tableHtml` -- its text.
-/

namespace LinkPane

open Markup

/-- A cell in an element of that tag. -/
def Cell.view (tag : String) (cell : Cell) : List Piece :=
  element tag [.style cell.style.css] [.text cell.text]

/-- The cells of a row. -/
def Cells.view (tag : String) (cells : Cells) : List Piece :=
  element "tr" [] (listed (cells.toList.map (Cell.view tag)))

/-- What is drawn of a layout. -/
structure Drawn where
  title : List Piece
  header : List Piece
  rows : List (RowKey × List Piece)
  deriving DecidableEq, Repr

/-- Nothing is drawn. -/
def Drawn.nothing : Drawn := ⟨[], [], []⟩

/-- Draws a row, unless one of its key is there. -/
def Row.draw (drawn : List (RowKey × List Piece)) (row : Row) : RowKey × List Piece :=
  (row.key, (drawn.lookup row.key).getD (row.cells.view "td"))

/-- Draws a layout over what is there. -/
def Drawn.update (drawn : Drawn) (layout : Layout) : Drawn where
  title := [.text layout.title]
  header := layout.header.view "th"
  rows := layout.rows.map (Row.draw drawn.rows)

/-- What is drawn, in its pane. -/
def Drawn.view (pane : PaneStyle) (drawn : Drawn) : List Piece :=
  element "div" [.plain "class" "link-inspection-pane", .style pane.css]
    (element "div" [.style "text-align: center;"] drawn.title ++
      element "table" [.plain "class" "table"]
        (element "thead" [] drawn.header ++ element "tbody" [] (listed (drawn.rows.map Prod.snd))))

/-- A layout that is drawn afresh. -/
def Drawn.of (layout : Layout) : Drawn :=
  Drawn.nothing.update layout

/-- A table of inputs under a theme. -/
def tableView (theme : Theme) (inputs : Inputs) : List Piece :=
  (Drawn.of (.of theme inputs)).view theme.pane

/-- The text of a table. -/
def tableHtml (theme : Theme) (inputs : Inputs) : String :=
  page (tableView theme inputs)

theorem Drawn.title_of (layout : Layout) : (Drawn.of layout).title = [.text layout.title] := rfl

theorem Drawn.header_of (layout : Layout) : (Drawn.of layout).header = layout.header.view "th" := rfl

/-- All rows of a layout that is drawn afresh are drawn. -/
theorem Drawn.rows_of (layout : Layout) :
    (Drawn.of layout).rows = layout.rows.map fun row => (row.key, row.cells.view "td") := rfl

end LinkPane
