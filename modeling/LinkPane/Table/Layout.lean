import LinkPane.Link
import LinkPane.Theme

/-!
# The layout of a table

A table has four columns: the kind of a link, its source, a separator and its target.

* `Cell`, `Row`, `Layout` -- what a table shows;
* `Layout.of` -- the layout of inputs under a theme;
* `RowKey` -- what tells a row from all others: a row is kept as it stands while its key stays.
-/

namespace LinkPane

/-- A text and the style of its column. -/
structure Cell where
  text : String
  style : ColumnStyle
  deriving DecidableEq, Repr

/-- A place in the list of links and the link there. Equal links at different places have different keys. -/
structure RowKey where
  index : Nat
  link : Link
  deriving DecidableEq, Repr

/-- Four cells, one for each column. -/
structure Cells where
  kind : Cell
  source : Cell
  separator : Cell
  target : Cell
  deriving DecidableEq, Repr

/-- The cells from left to right. -/
def Cells.toList (cells : Cells) : List Cell :=
  [cells.kind, cells.source, cells.separator, cells.target]

/-- A row of the body of a table. -/
structure Row where
  key : RowKey
  cells : Cells
  deriving DecidableEq, Repr

/-- All that a table shows, but for the pane around it. -/
structure Layout where
  title : String
  header : Cells
  rows : List Row
  deriving DecidableEq, Repr

/-- The header of the first column. -/
def kindHeader : String := "Type"

/-- The header, whose first cell has no style. -/
def headerCells (theme : Theme) (inputs : Inputs) : Cells where
  kind := ⟨kindHeader, .blank⟩
  source := ⟨inputs.sourceLabel, theme.source⟩
  separator := ⟨theme.separator, theme.separatorColumn⟩
  target := ⟨inputs.targetLabel, theme.target⟩

/-- The cells of a link. -/
def linkCells (theme : Theme) (link : Link) : Cells where
  kind := ⟨link.kind, theme.kind⟩
  source := ⟨link.source, theme.source⟩
  separator := ⟨theme.separator, theme.separatorColumn⟩
  target := ⟨link.target, theme.target⟩

/-- The row of the link at `index`. -/
def Row.of (theme : Theme) (index : Nat) (link : Link) : Row where
  key := ⟨index, link⟩
  cells := linkCells theme link

/-- The layout of inputs under a theme. -/
def Layout.of (theme : Theme) (inputs : Inputs) : Layout where
  title := theme.title
  header := headerCells theme inputs
  rows := inputs.links.mapIdx (Row.of theme)

/-- The keys of the rows. -/
def Layout.keys (layout : Layout) : List RowKey :=
  layout.rows.map Row.key

/-- For each place that two layouts both have a row at, whether the row is kept. -/
def Layout.kept (before after : Layout) : List Bool :=
  before.keys.zipWith (fun k l => decide (k = l)) after.keys

/-- The number of different keys of two layouts. -/
def Layout.distinctKeys (before after : Layout) : Nat :=
  (before.keys ++ after.keys).eraseDups.length

@[simp] theorem Layout.rows_of (theme : Theme) (inputs : Inputs) :
    (Layout.of theme inputs).rows = inputs.links.mapIdx (Row.of theme) := rfl

@[simp] theorem Row.key_of (theme : Theme) (index : Nat) (link : Link) :
    (Row.of theme index link).key = ⟨index, link⟩ := rfl

/-- There is a row for each link. -/
theorem Layout.length_rows_of (theme : Theme) (inputs : Inputs) :
    (Layout.of theme inputs).rows.length = inputs.links.length := by
  rw [rows_of, List.length_mapIdx]

end LinkPane
