import LinkPane.Json.Machine
import LinkPane.Json.Escape
import LinkPane.Json.Place
import LinkPane.Json.Value

/-!
# Reading a value

The reader of JSON values is a machine: it is fed the text one character at a time and keeps the brackets
that are open around the place it has come to.

* `Quote` -- the inside of a quoted text; `Quote.step` undoes the escapes;
* `Digits` -- a number literal as far as it is read;
* `Frame`, `State` -- what is open, and what may come next;
* `valueMachine` -- the machine, for a limit on the number of open brackets;
* `readValue` -- the reader.
-/

namespace LinkPane.Json

/-! ## 1. Quoted texts -/

/-- Where in a quoted text the reader is. -/
inductive Quote.Mode
  /-- Behind a whole character. -/
  | plain
  /-- Behind a backslash. -/
  | escape
  /-- In the digits of a code unit. -/
  | hex (read : List Char)
  /-- Behind a code unit that begins a pair. -/
  | lead (unit : Nat)
  /-- Behind the backslash after such a code unit. -/
  | leadEscape (unit : Nat)
  /-- In the digits of the code unit that ends the pair. -/
  | leadHex (unit : Nat) (read : List Char)

/-- The inside of a quoted text: the characters read, latest first. -/
structure Quote where
  mode : Quote.Mode
  read : List Char

/-- Right behind the opening quote. -/
def Quote.empty : Quote := ⟨.plain, []⟩

/-- The text read so far. -/
def Quote.text (q : Quote) : String :=
  String.ofList q.read.reverse

/-- Reads one more character of the text. -/
def Quote.add (q : Quote) (c : Char) : Quote := ⟨.plain, c :: q.read⟩

/-- A code unit that does not end a pair. -/
def Quote.firstUnit (q : Quote) (unit : Nat) : Step Quote String :=
  if trailing unit then .refuse .loneSurrogate 1
  else if leading unit then .next { q with mode := .lead unit }
  else .next (q.add (Char.ofNat unit))

/-- A code unit behind one that begins a pair. -/
def Quote.secondUnit (q : Quote) (lead unit : Nat) : Step Quote String :=
  if trailing unit then .next (q.add (pair lead unit)) else .refuse .loneSurrogate 1

/-- One character between the quotes, or the closing quote (`.stop`, with the text). -/
def Quote.step (q : Quote) (c : Char) : Step Quote String :=
  match q.mode with
  | .plain =>
    if c = '"' then .stop q.text
    else if c = '\\' then .next { q with mode := .escape }
    else if c < ' ' then .refuse .controlCharacter 1
    else .next (q.add c)
  | .escape =>
    if c = 'u' then .next { q with mode := .hex [] }
    else match shortEscape? c with
      | some d => .next (q.add d)
      | none => .refuse .invalidEscape 1
  | .hex read =>
    match Hex.push read c with
    | .more read => .next { q with mode := .hex read }
    | .unit unit => q.firstUnit unit
    | .refused seen => .refuse .invalidEscape seen
  | .lead lead =>
    if c = '\\' then .next { q with mode := .leadEscape lead } else .refuse .endOfPair 1
  | .leadEscape lead =>
    if c = 'u' then .next { q with mode := .leadHex lead [] } else .refuse .endOfPair 1
  | .leadHex lead read =>
    match Hex.push read c with
    | .more read => .next { q with mode := .leadHex lead read }
    | .unit unit => q.secondUnit lead unit
    | .refused seen => .refuse .invalidEscape seen

/-! ## 2. Numbers -/

/-- A number literal as far as it is read; its digits are latest first. -/
structure Digits where
  place : Place
  read : Literal

/-- No part of a number. -/
def Literal.empty : Literal := ⟨false, [], [], none⟩

/-- The literal with its digits in the order of the text. -/
def Digits.literal (d : Digits) : Literal where
  negative := d.read.negative
  whole := d.read.whole.reverse
  fraction := d.read.fraction.reverse
  exponent := d.read.exponent.map fun e => { e with digits := e.digits.reverse }

/-- Adds a character that belongs to the part `place` of the literal. -/
def Digits.add (read : Literal) (place : Place) (c : Char) : Digits :=
  ⟨place,
    match place with
    | .minus => { read with negative := true }
    | .zero | .whole => { read with whole := c :: read.whole }
    | .point => read
    | .fraction => { read with fraction := c :: read.fraction }
    | .mark => { read with exponent := some ⟨false, []⟩ }
    | .markSign => { read with exponent := some ⟨c == '-', []⟩ }
    | .exponent =>
      { read with exponent := read.exponent.map fun e => { e with digits := c :: e.digits } }⟩

/-- The first character of a number. -/
def Digits.first (c : Char) : Digits :=
  .add .empty (if c = '-' then .minus else .ofDigit c) c

/-- The number that was read, if it is in range. -/
def Digits.finish (d : Digits) : Except Cause Numeral :=
  match d.literal.numeral? with
  | some n => .ok n
  | none => .error .numberOutOfRange

/-- The exponent is too large already. -/
def Digits.overflows (d : Digits) : Bool :=
  d.place == .exponent && d.literal.overflows

/-- One character of a number, or the first behind it. An exponent that is too large is refused at the digit
    that makes it so. -/
def Digits.step (d : Digits) (c : Char) : Step Digits Numeral :=
  match d.place.step c with
  | .to place =>
    let d := Digits.add d.read place c
    if d.overflows then .refuse .numberOutOfRange 1 else .next d
  | .ended =>
    match d.finish with
    | .ok n => .stop n
    | .error cause => .refuse cause 0
  | .refused => .refuse .invalidNumber 1

/-! ## 3. Brackets -/

/-- An open bracket and what has been read since, latest first. In an object the key of the member that is
    being read is kept beside. -/
inductive Frame
  | list (items : List Value)
  | object (members : List (String × Value)) (key : String)

/-- Where the reader is; `frames` are the brackets open there, the innermost first. -/
inductive State
  /-- Before a value. -/
  | beforeValue (frames : List Frame)
  /-- Behind the bracket of a list. -/
  | firstItem (frames : List Frame)
  /-- Behind a comma in a list. -/
  | nextItem (items : List Value) (frames : List Frame)
  /-- Behind the bracket of an object. -/
  | firstKey (frames : List Frame)
  /-- Behind a comma in an object. -/
  | nextKey (members : List (String × Value)) (frames : List Frame)
  /-- In a key. -/
  | inKey (quote : Quote) (members : List (String × Value)) (frames : List Frame)
  /-- Behind a key. -/
  | afterKey (members : List (String × Value)) (key : String) (frames : List Frame)
  /-- In a word, before the character `c`. -/
  | inWord (c : Char) (rest : List Char) (value : Value) (frames : List Frame)
  /-- In a text. -/
  | inText (quote : Quote) (frames : List Frame)
  /-- In a number. -/
  | inNumber (digits : Digits) (frames : List Frame)
  /-- Behind a value. -/
  | afterValue (value : Value) (frames : List Frame)

/-! ## 4. The machine -/

/-- Opens a bracket, unless `limit` brackets are open. -/
def State.enter (limit : Nat) (frames : List Frame) (state : State) : Step State Value :=
  if frames.length < limit then .next state else .refuse .tooDeep 1

/-- The first character of a value. -/
def State.begin (limit : Nat) (frames : List Frame) (c : Char) : Step State Value :=
  if c = 'n' then .next (.inWord 'u' ['l', 'l'] .null frames)
  else if c = 't' then .next (.inWord 'r' ['u', 'e'] (.boolean true) frames)
  else if c = 'f' then .next (.inWord 'a' ['l', 's', 'e'] (.boolean false) frames)
  else if c = '"' then .next (.inText .empty frames)
  else if c = '[' then State.enter limit frames (.firstItem frames)
  else if c = '{' then State.enter limit frames (.firstKey frames)
  else if c = '-' ∨ isDigit c then .next (.inNumber (.first c) frames)
  else .refuse .expectedValue 1

/-- The first character behind a value. Where no bracket is open the value is all there is to read. -/
def State.follow (value : Value) (frames : List Frame) (c : Char) : Step State Value :=
  match frames with
  | [] => .stop value
  | .list items :: outer =>
    if isBlank c then .next (.afterValue value frames)
    else if c = ',' then .next (.nextItem (value :: items) outer)
    else if c = ']' then .next (.afterValue (.list (value :: items).reverse) outer)
    else .refuse .expectedListEnd 1
  | .object members key :: outer =>
    if isBlank c then .next (.afterValue value frames)
    else if c = ',' then .next (.nextKey ((key, value) :: members) outer)
    else if c = '}' then .next (.afterValue (.object ((key, value) :: members).reverse) outer)
    else .refuse .expectedObjectEnd 1

/-- What a character does in a state. -/
def State.step (limit : Nat) (state : State) (c : Char) : Step State Value :=
  match state with
  | .beforeValue frames =>
    if isBlank c then .next state else State.begin limit frames c
  | .firstItem frames =>
    if isBlank c then .next state
    else if c = ']' then .next (.afterValue (.list []) frames)
    else State.begin limit (.list [] :: frames) c
  | .nextItem items frames =>
    if isBlank c then .next state
    else if c = ']' then .refuse .trailingComma 1
    else State.begin limit (.list items :: frames) c
  | .firstKey frames =>
    if isBlank c then .next state
    else if c = '}' then .next (.afterValue (.object []) frames)
    else if c = '"' then .next (.inKey .empty [] frames)
    else .refuse .keyNotText 1
  | .nextKey members frames =>
    if isBlank c then .next state
    else if c = '}' then .refuse .trailingComma 1
    else if c = '"' then .next (.inKey .empty members frames)
    else .refuse .keyNotText 1
  | .inKey quote members frames =>
    match quote.step c with
    | .next quote => .next (.inKey quote members frames)
    | .stop key => .next (.afterKey members key frames)
    | .refuse cause seen => .refuse cause seen
  | .afterKey members key frames =>
    if isBlank c then .next state
    else if c = ':' then .next (.beforeValue (.object members key :: frames))
    else .refuse .expectedColon 1
  | .inWord d rest value frames =>
    if c = d then
      match rest with
      | [] => .next (.afterValue value frames)
      | d :: rest => .next (.inWord d rest value frames)
    else .refuse .expectedWord 1
  | .inText quote frames =>
    match quote.step c with
    | .next quote => .next (.inText quote frames)
    | .stop text => .next (.afterValue (.text text) frames)
    | .refuse cause seen => .refuse cause seen
  | .inNumber digits frames =>
    match digits.step c with
    | .next digits => .next (.inNumber digits frames)
    | .stop n => State.follow (.number n) frames c
    | .refuse cause seen => .refuse cause seen
  | .afterValue value frames => State.follow value frames c

/-- What is missing behind a value where brackets are open. -/
def State.finishAfter (value : Value) (frames : List Frame) : Except Cause Value :=
  match frames with
  | [] => .ok value
  | .list _ :: _ => .error .endInList
  | .object _ _ :: _ => .error .endInObject

/-- What the end of the text does in a state. -/
def State.finish (state : State) : Except Cause Value :=
  match state with
  | .beforeValue _ => .error .endInValue
  | .firstItem _ => .error .endInList
  | .nextItem _ _ => .error .endInValue
  | .firstKey _ => .error .endInObject
  | .nextKey _ _ => .error .endInValue
  | .inKey _ _ _ => .error .endInText
  | .afterKey _ _ _ => .error .endInObject
  | .inWord _ _ _ _ => .error .endInValue
  | .inText _ _ => .error .endInText
  | .inNumber digits frames =>
    if digits.place.isEnd then
      match digits.finish with
      | .ok n => State.finishAfter (.number n) frames
      | .error cause => .error cause
    else .error .endInValue
  | .afterValue value frames => State.finishAfter value frames

/-- The machine that reads values with at most `limit` brackets open at once. -/
def valueMachine (limit : Nat) : Machine State Value where
  step := State.step limit
  finish := State.finish

/-- Reads a value with at most `limit` brackets open at once. -/
def readValue (limit : Nat) : Reader Value :=
  (valueMachine limit).run (.beforeValue [])

/-- The number of brackets that may be open at once in a text. -/
def depthLimit : Nat := 127

end LinkPane.Json
