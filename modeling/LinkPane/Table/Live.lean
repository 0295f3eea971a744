import LinkPane.Signal
import LinkPane.Table.View

/-!
# Tables that change

A table follows its labels and links: its inputs are put together from them, its layout is made from the
inputs, and what is drawn is brought up to date from the layout. An observer may be told of the inputs.
Each of these looks again only if what it follows is another value than before.

* `Theme.choose` -- the theme of a table: its own, or else the innermost one around it, or else the standard
  one. Themes are never mixed;
* `Table` -- a table on a page; `Table.refresh` -- brings it up to date;
* `Write` -- a change of labels or links; `Write.apply`, `writeAll` -- the inputs after one, after several;
* `Pane` -- a table with the signals that it follows; `Pane.step` -- makes the writes of a step, one after
  the other, and brings the table up to date once; `Pane.run` -- what is shown in all steps.
-/

namespace LinkPane

open Markup

/-! ## 1. Themes -/

/-- The theme of a table, from its own theme and those around it, the outermost first. -/
def Theme.choose (own : Option Theme) (around : List Theme) : Theme :=
  (own.or around.getLast?).getD .standard

/-! ## 2. Tables -/

/-- A table on a page. Its theme and whether it has an observer are settled when it gets there. -/
structure Table where
  theme : Theme
  observed : Bool
  inputs : Memo Inputs
  layout : Memo Layout
  drawn : Drawn
  deriving DecidableEq, Repr

/-- A table that has not been drawn yet. -/
def Table.new (theme : Theme) (observed : Bool) : Table :=
  ⟨theme, observed, none, none, .nothing⟩

/-- Brings a table up to date with the labels and links `current`, which may be others than before if the
    table is `due`; gives the inputs that the observer is told of. -/
def Table.refresh (table : Table) (due : Bool) (current : Inputs) : Table × List Inputs :=
  let (inputs, changed) := table.inputs.ask due fun _ => current
  let (layout, redraw) := table.layout.ask changed fun _ => .of table.theme inputs
  ({ table with
      inputs := some inputs
      layout := some layout
      drawn := if redraw then table.drawn.update layout else table.drawn },
    if changed && table.observed then [inputs] else [])

/-- A table as it is drawn. -/
def Table.view (table : Table) : List Piece :=
  table.drawn.view table.theme.pane

/-- The text of a table as it is drawn. -/
def Table.html (table : Table) : String :=
  page table.view

/-! ## 3. Writes -/

/-- A change of the inputs of a table. -/
inductive Write
  | setSource (label : String)
  | setTarget (label : String)
  | setLinks (links : List Link)
  | replace (index : Nat) (link : Link)
  | push (link : Link)
  | remove (index : Nat)
  deriving DecidableEq, Repr

/-- The inputs after a change. There is no change at an index that no link has. -/
def Write.apply (inputs : Inputs) : Write → Inputs
  | .setSource label => { inputs with sourceLabel := label }
  | .setTarget label => { inputs with targetLabel := label }
  | .setLinks links => { inputs with links := links }
  | .replace index link => { inputs with links := inputs.links.set index link }
  | .push link => { inputs with links := inputs.links ++ [link] }
  | .remove index => { inputs with links := inputs.links.eraseIdx index }

/-- The inputs after some changes. -/
def writeAll (inputs : Inputs) (writes : List Write) : Inputs :=
  writes.foldl Write.apply inputs

@[simp] theorem writeAll_nil (inputs : Inputs) : writeAll inputs [] = inputs := rfl

@[simp] theorem writeAll_cons (inputs : Inputs) (write : Write) (writes : List Write) :
    writeAll inputs (write :: writes) = writeAll (write.apply inputs) writes := rfl

theorem writeAll_append (inputs : Inputs) (a b : List Write) :
    writeAll inputs (a ++ b) = writeAll (writeAll inputs a) b :=
  List.foldl_append

/-! ## 4. Tables with their signals -/

/-- A table and the three signals that it follows. -/
structure Pane where
  sourceLabel : Signal String
  targetLabel : Signal String
  links : Signal (List Link)
  table : Table
  deriving DecidableEq, Repr

/-- A table that has not been drawn yet, over signals that hold `inputs`. -/
def Pane.new (theme : Theme) (observed : Bool) (inputs : Inputs) : Pane :=
  ⟨.new inputs.sourceLabel, .new inputs.targetLabel, .new inputs.links, .new theme observed⟩

/-- The inputs that the signals hold. -/
def Pane.inputs (pane : Pane) : Inputs :=
  ⟨pane.sourceLabel.value, pane.targetLabel.value, pane.links.value⟩

/-- The table has to look again. -/
def Pane.due (pane : Pane) : Bool :=
  pane.sourceLabel.written || pane.targetLabel.written || pane.links.written

/-- Writes to one of the signals. -/
def Pane.write (pane : Pane) : Write → Pane
  | .setSource label => { pane with sourceLabel := pane.sourceLabel.set label }
  | .setTarget label => { pane with targetLabel := pane.targetLabel.set label }
  | .setLinks links => { pane with links := pane.links.set links }
  | .replace index link => { pane with links := pane.links.update fun links => links.set index link }
  | .push link => { pane with links := pane.links.update fun links => links ++ [link] }
  | .remove index => { pane with links := pane.links.update fun links => links.eraseIdx index }

/-- What a step shows: the inputs that the observer is told of, and the table. -/
structure Drawing where
  observed : List Inputs
  html : String
  deriving DecidableEq, Repr

/-- Brings the table up to date. -/
def Pane.draw (pane : Pane) : Pane × Drawing :=
  let (table, observed) := pane.table.refresh pane.due pane.inputs
  (⟨pane.sourceLabel.settle, pane.targetLabel.settle, pane.links.settle, table⟩, ⟨observed, table.html⟩)

/-- Makes the writes of a step. -/
def Pane.step (pane : Pane) (writes : List Write) : Pane × Drawing :=
  (writes.foldl Pane.write pane).draw

/-- What some steps show. -/
def Pane.steps (pane : Pane) : List (List Write) → List Drawing
  | [] => []
  | writes :: rest => (pane.step writes).2 :: (pane.step writes).1.steps rest

/-- What a new table shows as it is drawn first, and then in some steps. -/
def Pane.run (pane : Pane) (steps : List (List Write)) : List Drawing :=
  pane.draw.2 :: pane.draw.1.steps steps

/-- The signals hold what the write makes of the inputs. -/
@[simp] theorem Pane.inputs_write (pane : Pane) (write : Write) :
    (pane.write write).inputs = write.apply pane.inputs := by
  cases write <;> rfl

end LinkPane
