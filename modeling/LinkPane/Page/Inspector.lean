import LinkPane.Log
import LinkPane.Payload
import LinkPane.Table.Live

/-!
# The inspector

A page with a payload that can be edited and the table of its links. While a payload is refused the table
shows the links of the last one that was not, and the page says why it is refused.

* `Verdict` -- what reading a payload comes to;
* `Boundary` -- the part of the page that says it: what is inside may throw an error instead of showing
  itself, and then the errors thrown are listed;
* `Inspector` -- the page. The verdict follows the payload, the links follow the verdict and the links
  shown before, the table follows the links, and its observer is the log;
* `Inspector.refresh` -- brings the page up to date;
* `Inspector.step` -- types some payloads, one over the other, and brings the page up to date once;
  `Inspector.run` -- what a new page shows, as it is opened and in each step.
-/

namespace LinkPane

open Markup

/-! ## 1. Verdicts -/

/-- What reading a payload comes to: its links, or why it is refused. -/
inductive Verdict
  | accepted (links : List Link)
  | refused (message : String)
  deriving DecidableEq, Repr

/-- The verdict on a payload. -/
def Verdict.of (payload : String) : Verdict :=
  match parseLinks payload with
  | .ok links => .accepted links
  | .error rejection => .refused rejection.message

/-- The links shown under a verdict: its own, or the ones shown before, of which there may be none. -/
def Verdict.links (verdict : Verdict) (before : Option (List Link)) : List Link :=
  match verdict with
  | .accepted links => links
  | .refused _ => before.getD []

/-! ## 2. What is said about a payload -/

/-- What stands inside a boundary. -/
inductive Inside
  | nothing
  | shown (pieces : List Piece)
  /-- An error was thrown, under that number. -/
  | thrown (number : Nat)
  deriving DecidableEq, Repr

/-- A part of a page that lists the errors thrown inside it, as long as there are any. Each error thrown has
    a number of its own. -/
structure Boundary where
  errors : List (Nat × String)
  next : Nat
  inside : Inside
  deriving DecidableEq, Repr

/-- A boundary around nothing. -/
def Boundary.new : Boundary := ⟨[], 0, .nothing⟩

/-- Takes back the error thrown inside, if one was. -/
def Boundary.clear (boundary : Boundary) : Boundary :=
  match boundary.inside with
  | .thrown number => { boundary with errors := boundary.errors.filter fun error => error.1 != number }
  | _ => boundary

/-- Puts a verdict inside: the number of links is shown, a message is thrown. -/
def Boundary.put (boundary : Boundary) (verdict : Verdict) : Boundary :=
  let cleared := boundary.clear
  match verdict with
  | .accepted links =>
    { cleared with inside := .shown (element "p" [] [.text (toString links.length ++ " links")]) }
  | .refused message =>
    ⟨cleared.errors ++ [(cleared.next, message)], cleared.next + 1, .thrown cleared.next⟩

/-- The errors thrown, or what is inside if there are none. -/
def Boundary.view (boundary : Boundary) : List Piece :=
  match boundary.errors, boundary.inside with
  | [], .shown pieces => pieces
  | [], _ => []
  | errors, _ =>
    element "p" [] [.text "Link payload rejected:"] ++
      element "ul" [] (listed (errors.map fun error => element "li" [] [.text error.2]))

/-! ## 3. The page -/

/-- The payload of a new page. -/
def samplePayload : String :=
  "[\n" ++
  "\t\x7b\"type\": \"net\", \"source\": \"mcu.gpio1\", \"target\": \"led.anode\"\x7d,\n" ++
  "\t\x7b\"type\": \"net\", \"source\": \"mcu.gnd\", \"target\": \"led.cathode\"\x7d,\n" ++
  "\t\x7b\"type\": \"interface\", \"source\": \"mcu.i2c\", \"target\": \"sensor.i2c\"\x7d,\n" ++
  "\t\x7b\"type\": \"power\", \"source\": \"ldo.vout\", \"target\": \"mcu.vcc\"\x7d\n" ++
  "]"

/-- An inspector page. -/
structure Inspector where
  payload : Signal String
  verdict : Memo Verdict
  links : Memo (List Link)
  table : Table
  status : Boundary
  deriving DecidableEq, Repr

/-- The inputs of the table on the page. -/
def inspectorInputs (links : List Link) : Inputs :=
  ⟨"Source", "Target", links⟩

/-- A new page, not drawn yet. -/
def Inspector.fresh : Inspector where
  payload := .new samplePayload
  verdict := none
  links := none
  table := .new (.choose none []) true
  status := .new

/-- Types a payload over the one that is there. -/
def Inspector.enter (page : Inspector) (payload : String) : Inspector :=
  { page with payload := page.payload.set payload }

/-- Brings the page up to date; gives the inputs that the log is told of. -/
def Inspector.refresh (page : Inspector) : Inspector × List Inputs :=
  let (verdict, judged) := page.verdict.ask page.payload.written fun _ => .of page.payload.value
  let (links, changed) := page.links.ask judged verdict.links
  let (table, told) := page.table.refresh changed (inspectorInputs links)
  ({  payload := page.payload.settle
      verdict := some verdict
      links := some links
      table := table
      status := if judged then page.status.put verdict else page.status },
    told)

/-- The page around a table and what is said about the payload. -/
def inspectorView (table status : List Piece) : List Piece :=
  element "div" [.plain "class" "link-inspector"]
    (table ++ status ++
      element "textarea" [.plain "rows" "10", .plain "cols" "80", .plain "class" "link-payload"] [])

/-- The page as it is drawn. -/
def Inspector.view (page : Inspector) : List Piece :=
  inspectorView page.table.view page.status.view

/-- What a step shows: the lines it writes to the log, and the page. -/
structure Showing where
  log : List Entry
  html : String
  deriving DecidableEq, Repr

/-- Brings the page up to date and shows it. -/
def Inspector.draw (page : Inspector) : Inspector × Showing :=
  let (page, told) := page.refresh
  (page, ⟨told.flatMap logInputs, Markup.page page.view⟩)

/-- Types payloads, one over the other. -/
def Inspector.step (page : Inspector) (typed : List String) : Inspector × Showing :=
  (typed.foldl Inspector.enter page).draw

/-- What some steps show. -/
def Inspector.steps (page : Inspector) : List (List String) → List Showing
  | [] => []
  | typed :: rest => (page.step typed).2 :: (page.step typed).1.steps rest

/-- What a new page shows as it is opened, and then in some steps. -/
def Inspector.run (steps : List (List String)) : List Showing :=
  Inspector.fresh.draw.2 :: Inspector.fresh.draw.1.steps steps

end LinkPane
