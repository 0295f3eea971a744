import LinkPane.Json.Record

/-!
# Themes

* `Align`, `ColumnStyle`, `PaneStyle` -- the styles of columns and of the pane around a table; `css` is what
  they are in a style sheet;
* `Theme` -- the texts and styles of a table;
* `ColumnStyle.shape`, `PaneStyle.shape`, `Theme.shape` -- the three in JSON.

A theme that leaves something out takes it from `Theme.standard`; a style inside a theme that leaves something
out takes it from the blank style of its own type instead.
-/

namespace LinkPane

open Json

/-! ## 1. Styles -/

/-- Where a text stands in its column. -/
inductive Align
  | left
  | center
  | right
  deriving DecidableEq, Repr

/-- The word for an alignment. -/
def Align.name : Align → String
  | .left => "left"
  | .center => "center"
  | .right => "right"

/-- The style of the cells of a column. -/
structure ColumnStyle where
  width : Option String
  align : Option Align
  deriving DecidableEq, Repr

/-- Nothing is set. -/
def ColumnStyle.blank : ColumnStyle := ⟨none, none⟩

/-- Width and alignment are set. -/
def ColumnStyle.fixed (width : String) (align : Align) : ColumnStyle := ⟨some width, some align⟩

/-- A property in a style sheet. -/
def declaration (property value : String) : String :=
  property ++ ": " ++ value ++ ";"

/-- The declarations that a column style sets, the alignment first. -/
def ColumnStyle.declarations (style : ColumnStyle) : List String :=
  (style.align.map fun align => declaration "text-align" align.name).toList ++
    (style.width.map (declaration "width")).toList

/-- A column style in a style sheet; empty if nothing is set. -/
def ColumnStyle.css (style : ColumnStyle) : String :=
  String.intercalate " " style.declarations

/-- The style of the pane around a table. -/
structure PaneStyle where
  background : String
  border : String
  radius : String
  margin : String
  padding : String
  deriving DecidableEq, Repr

/-- A grey pane. -/
def PaneStyle.standard : PaneStyle where
  background := "lightgray"
  border := "2px solid grey"
  radius := "10px"
  margin := "10px"
  padding := "10px"

/-- A pane style in a style sheet. -/
def PaneStyle.css (style : PaneStyle) : String :=
  String.intercalate " "
    [declaration "background-color" style.background, declaration "border" style.border,
      declaration "border-radius" style.radius, declaration "margin" style.margin,
      declaration "padding" style.padding]

/-! ## 2. Themes -/

/-- The texts and styles of a table that are not in its inputs. -/
structure Theme where
  title : String
  separator : String
  pane : PaneStyle
  kind : ColumnStyle
  source : ColumnStyle
  separatorColumn : ColumnStyle
  target : ColumnStyle
  deriving DecidableEq, Repr

/-- The theme of a table that is given none. -/
def Theme.standard : Theme where
  title := "Link inspection pane"
  separator := "~"
  pane := .standard
  kind := .fixed "100px" .center
  source := .fixed "100px" .right
  separatorColumn := .blank
  target := .fixed "100px" .left

/-! ## 3. In JSON -/

/-- The alignments by name. -/
def Align.known : List (String × Align) :=
  [Align.left, .center, .right].map fun align => (align.name, align)

/-- Reads an alignment. -/
def Align.read : Reader Align :=
  readVariant Align.known

/-- Writes an alignment. -/
def Align.write (align : Align) : List Char :=
  writeText align.name

/-- A field that may be `null`. -/
def optionalField {σ α : Type} (name : String) (read : Reader α) (write : α → List Char)
    (get : σ → Option α) (set : Option α → σ → σ) : Json.Field σ where
  name := name
  Content := Option α
  read := readOption read
  write := writeOption write
  get := get
  set := set

/-- A column style in JSON. -/
def ColumnStyle.shape : Shape ColumnStyle where
  name := "ColumnStyle"
  blank := .blank
  fields :=
    [optionalField "width" readText writeText ColumnStyle.width fun x style => { style with width := x },
      optionalField "align" Align.read Align.write ColumnStyle.align fun x style => { style with align := x }]

/-- A pane style in JSON. -/
def PaneStyle.shape : Shape PaneStyle where
  name := "PaneStyle"
  blank := .standard
  fields :=
    [.text "background" PaneStyle.background fun x style => { style with background := x },
      .text "border" PaneStyle.border fun x style => { style with border := x },
      .text "radius" PaneStyle.radius fun x style => { style with radius := x },
      .text "margin" PaneStyle.margin fun x style => { style with margin := x },
      .text "padding" PaneStyle.padding fun x style => { style with padding := x }]

/-- A theme in JSON. -/
def Theme.shape : Shape Theme where
  name := "LinkTableTheme"
  blank := .standard
  fields :=
    [.text "title" Theme.title fun x theme => { theme with title := x },
      .text "separator" Theme.separator fun x theme => { theme with separator := x },
      PaneStyle.shape.toField "pane" Theme.pane fun x theme => { theme with pane := x },
      ColumnStyle.shape.toField "kind" Theme.kind fun x theme => { theme with kind := x },
      ColumnStyle.shape.toField "source" Theme.source fun x theme => { theme with source := x },
      ColumnStyle.shape.toField "separator_column" Theme.separatorColumn
        fun x theme => { theme with separatorColumn := x },
      ColumnStyle.shape.toField "target" Theme.target fun x theme => { theme with target := x }]

end LinkPane
