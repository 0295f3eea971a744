import LinkPane.Json.Machine
import LinkPane.Json.Escape
import LinkPane.Json.Place

/-!
# Skipping a value

A value that nobody asks for has to be well formed, but it is not put together: the machine keeps only the
kinds of the open brackets. It has no limit on their number, takes a code unit as it stands, and does not
ask how large a number is.

* `SkipState`, `skipMachine` -- the machine;
* `skipValue` -- the reader.
-/

namespace LinkPane.Json

/-- The kind of an open bracket. -/
inductive Bracket
  | list
  | object
  deriving DecidableEq, Repr

/-- Where in a quoted text the skipper is. -/
inductive SkipQuote
  /-- Behind a whole character. -/
  | plain
  /-- Behind a backslash. -/
  | escape
  /-- In the digits of a code unit. -/
  | hex (read : List Char)

/-- One character between the quotes, or the closing quote (`.stop`). -/
def SkipQuote.step (q : SkipQuote) (c : Char) : Step SkipQuote Unit :=
  match q with
  | .plain =>
    if c = '"' then .stop ()
    else if c = '\\' then .next .escape
    else if c < ' ' then .refuse .controlCharacter 0
    else .next .plain
  | .escape =>
    if c = 'u' then .next (.hex [])
    else if (shortEscape? c).isSome then .next .plain
    else .refuse .invalidEscape 1
  | .hex read =>
    match Hex.push read c with
    | .more read => .next (.hex read)
    | .unit _ => .next .plain
    | .refused seen => .refuse .invalidEscape seen

/-- Where the skipper is; `brackets` are those open there, the innermost first. -/
inductive SkipState
  /-- Before a value. -/
  | beforeValue (brackets : List Bracket)
  /-- Behind an opening bracket. -/
  | opened (bracket : Bracket) (brackets : List Bracket)
  /-- Behind a comma in an object. -/
  | nextKey (brackets : List Bracket)
  /-- In a key. -/
  | inKey (quote : SkipQuote) (brackets : List Bracket)
  /-- Behind a key. -/
  | afterKey (brackets : List Bracket)
  /-- In a word, before the character `c`. -/
  | inWord (c : Char) (rest : List Char) (brackets : List Bracket)
  /-- In a text. -/
  | inText (quote : SkipQuote) (brackets : List Bracket)
  /-- In a number. -/
  | inNumber (place : Place) (brackets : List Bracket)
  /-- Behind a value. -/
  | afterValue (brackets : List Bracket)

/-- The first character of a value. -/
def SkipState.begin (brackets : List Bracket) (c : Char) : Step SkipState Unit :=
  if c = 'n' then .next (.inWord 'u' ['l', 'l'] brackets)
  else if c = 't' then .next (.inWord 'r' ['u', 'e'] brackets)
  else if c = 'f' then .next (.inWord 'a' ['l', 's', 'e'] brackets)
  else if c = '"' then .next (.inText .plain brackets)
  else if c = '[' then .next (.opened .list brackets)
  else if c = '{' then .next (.opened .object brackets)
  else if c = '-' then .next (.inNumber .minus brackets)
  else if isDigit c then .next (.inNumber (.ofDigit c) brackets)
  else .refuse .expectedValue 1

/-- The first character behind a value. -/
def SkipState.follow (brackets : List Bracket) (c : Char) : Step SkipState Unit :=
  match brackets with
  | [] => .stop ()
  | .list :: outer =>
    if isBlank c then .next (.afterValue brackets)
    else if c = ',' then .next (.beforeValue brackets)
    else if c = ']' then .next (.afterValue outer)
    else .refuse .expectedListEnd 1
  | .object :: outer =>
    if isBlank c then .next (.afterValue brackets)
    else if c = ',' then .next (.nextKey outer)
    else if c = '}' then .next (.afterValue outer)
    else .refuse .expectedObjectEnd 1

/-- What a character does in a state. -/
def SkipState.step (state : SkipState) (c : Char) : Step SkipState Unit :=
  match state with
  | .beforeValue brackets =>
    if isBlank c then .next state else SkipState.begin brackets c
  | .opened .list brackets =>
    if isBlank c then .next state
    else if c = ']' then .next (.afterValue brackets)
    else SkipState.begin (.list :: brackets) c
  | .opened .object brackets =>
    if isBlank c then .next state
    else if c = '}' then .next (.afterValue brackets)
    else if c = '"' then .next (.inKey .plain brackets)
    else .refuse .keyNotText 1
  | .nextKey brackets =>
    if isBlank c then .next state
    else if c = '"' then .next (.inKey .plain brackets)
    else .refuse .keyNotText 1
  | .inKey quote brackets =>
    match quote.step c with
    | .next quote => .next (.inKey quote brackets)
    | .stop _ => .next (.afterKey brackets)
    | .refuse cause seen => .refuse cause seen
  | .afterKey brackets =>
    if isBlank c then .next state
    else if c = ':' then .next (.beforeValue (.object :: brackets))
    else .refuse .expectedColon 1
  | .inWord d rest brackets =>
    if c = d then
      match rest with
      | [] => .next (.afterValue brackets)
      | d :: rest => .next (.inWord d rest brackets)
    else .refuse .expectedWord 1
  | .inText quote brackets =>
    match quote.step c with
    | .next quote => .next (.inText quote brackets)
    | .stop _ => .next (.afterValue brackets)
    | .refuse cause seen => .refuse cause seen
  | .inNumber place brackets =>
    match place.step c with
    | .to place => .next (.inNumber place brackets)
    | .ended => SkipState.follow brackets c
    | .refused => .refuse .invalidNumber 1
  | .afterValue brackets => SkipState.follow brackets c

/-- What is missing behind a value where brackets are open. -/
def SkipState.finishAfter (brackets : List Bracket) : Except Cause Unit :=
  match brackets with
  | [] => .ok ()
  | .list :: _ => .error .endInList
  | .object :: _ => .error .endInObject

/-- What the end of the text does in a state. A number that lacks digits is an ill-formed one here. -/
def SkipState.finish (state : SkipState) : Except Cause Unit :=
  match state with
  | .beforeValue _ => .error .endInValue
  | .opened .list _ => .error .endInList
  | .opened .object _ => .error .endInObject
  | .nextKey _ => .error .endInObject
  | .inKey _ _ => .error .endInText
  | .afterKey _ => .error .endInObject
  | .inWord _ _ _ => .error .endInValue
  | .inText _ _ => .error .endInText
  | .inNumber place brackets =>
    if place.isEnd then SkipState.finishAfter brackets else .error .invalidNumber
  | .afterValue brackets => SkipState.finishAfter brackets

/-- The machine that skips values. -/
def skipMachine : Machine SkipState Unit where
  step := SkipState.step
  finish := SkipState.finish

/-- Skips a value. -/
def skipValue : Reader Unit :=
  skipMachine.run (.beforeValue [])

end LinkPane.Json
