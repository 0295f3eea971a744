import LinkPane.Link

/-!
# The log

* `Entry` -- a line of the log: a level and a message;
* `logInputs` -- what the log says of the inputs of a table: a line for the labels and the number of links,
  and a line for each link.
-/

namespace LinkPane

/-- How much an entry matters. -/
inductive Level
  | debug
  | info
  deriving DecidableEq, Repr

/-- The name of a level. -/
def Level.name : Level → String
  | .debug => "DEBUG"
  | .info => "INFO"

/-- An entry of the log. -/
structure Entry where
  level : Level
  message : String
  deriving DecidableEq, Repr

/-- The line that an entry takes. -/
def Entry.line (e : Entry) : String :=
  e.level.name ++ " " ++ e.message

/-- A number of things, in decimal digits. -/
def decimal (n : Nat) : List Char :=
  Nat.toDigits 10 n

/-- The message about labels and number of links; `quote` writes a text. -/
def labelsMessage (quote : List Char → List Char) (inputs : Inputs) : List Char :=
  "link table: source=".toList ++ quote inputs.sourceLabel.toList ++
    " target=".toList ++ quote inputs.targetLabel.toList ++
    " links=".toList ++ decimal inputs.links.length

/-- The message about the link at `index`. -/
def linkMessage (quote : List Char → List Char) (index : Nat) (link : Link) : List Char :=
  "  [".toList ++ decimal index ++ "] Link \x7b kind: ".toList ++ quote link.kind.toList ++
    ", source: ".toList ++ quote link.source.toList ++
    ", target: ".toList ++ quote link.target.toList ++ " \x7d".toList

/-- The messages about inputs. -/
def messages (quote : List Char → List Char) (inputs : Inputs) : List (List Char) :=
  labelsMessage quote inputs :: inputs.links.mapIdx (linkMessage quote)

/-- The entries about inputs, for a set of characters that texts are to be quoted without. -/
def logInputsWith (escaped : Char → Bool) (inputs : Inputs) : List Entry :=
  (messages (Text.quoteWith escaped) inputs).map fun message => ⟨.debug, String.ofList message⟩

/-- The entries about inputs. -/
def logInputs (inputs : Inputs) : List Entry :=
  logInputsWith Text.isHidden inputs

/-- The first entry of the log. -/
def startLog : List Entry :=
  [⟨.info, "Logging initialized"⟩]

end LinkPane
