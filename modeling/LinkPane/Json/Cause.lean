import LinkPane.Json.Number
import LinkPane.Text.Quoted

/-!
# Why reading stops

* `Cause` -- the faults of a text that is no JSON, and of JSON that is not what was asked for;
* `Found` -- the kinds of value that a message tells apart;
* `Cause.message` -- the wording.
-/

namespace LinkPane.Json

/-! ## 1. Values in a message -/

/-- A value of the wrong kind, as far as the message shows it. -/
inductive Found
  | null
  | boolean (b : Bool)
  | number (n : Numeral)
  | text (s : String)
  | list
  | object

/-- The name of a value of the wrong kind. -/
def Found.message : Found → String
  | .null => "null"
  | .boolean true => "boolean `true`"
  | .boolean false => "boolean `false`"
  | .number (.integer n) => "integer `" ++ (Numeral.integer n).text ++ "`"
  | .number (.real x) => "floating point `" ++ (Numeral.real x).text ++ "`"
  | .text s => "string " ++ Text.quote s
  | .list => "sequence"
  | .object => "map"

/-! ## 2. Causes -/

/-- Why a reader stops. -/
inductive Cause
  /-- The text ends where a value is wanted, in a list, in an object or in a quoted text. -/
  | endInValue
  | endInList
  | endInObject
  | endInText
  /-- Something else stands where a value is wanted, or a word is misspelt. -/
  | expectedValue
  | expectedWord
  /-- Something else stands where the punctuation of a list or an object is wanted. -/
  | expectedColon
  | expectedListEnd
  | expectedObjectEnd
  | trailingComma
  | keyNotText
  /-- Something stands behind the value. -/
  | trailingCharacters
  /-- A quoted text is ill-formed. -/
  | controlCharacter
  | invalidEscape
  | loneSurrogate
  | endOfPair
  /-- A number is ill-formed or too large. -/
  | invalidNumber
  | numberOutOfRange
  /-- Too many brackets are open at once. -/
  | tooDeep
  /-- The value is of another kind than wanted. -/
  | wrongKind (found : Found) (expected : String)
  /-- A name is not among the known ones. -/
  | unknownVariant (name : String) (known : List String)
  /-- A member of a record is given twice. -/
  | duplicateField (name : String)

/-- A name between backticks. -/
def ticked (name : String) : String :=
  "`" ++ name ++ "`"

/-- The wording of a cause. -/
def Cause.message : Cause → String
  | .endInValue => "EOF while parsing a value"
  | .endInList => "EOF while parsing a list"
  | .endInObject => "EOF while parsing an object"
  | .endInText => "EOF while parsing a string"
  | .expectedValue => "expected value"
  | .expectedWord => "expected ident"
  | .expectedColon => "expected `:`"
  | .expectedListEnd => "expected `,` or `]`"
  | .expectedObjectEnd => "expected `,` or `\x7d`"
  | .trailingComma => "trailing comma"
  | .keyNotText => "key must be a string"
  | .trailingCharacters => "trailing characters"
  | .controlCharacter => "control character (\\u0000-\\u001F) found while parsing a string"
  | .invalidEscape => "invalid escape"
  | .loneSurrogate => "lone leading surrogate in hex escape"
  | .endOfPair => "unexpected end of hex escape"
  | .invalidNumber => "invalid number"
  | .numberOutOfRange => "number out of range"
  | .tooDeep => "recursion limit exceeded"
  | .wrongKind found expected => "invalid type: " ++ found.message ++ ", expected " ++ expected
  | .unknownVariant name known =>
    "unknown variant " ++ ticked name ++ ", expected one of " ++ String.intercalate ", " (known.map ticked)
  | .duplicateField name => "duplicate field " ++ ticked name

/-- The text ended before the value did. -/
def Cause.isEnd : Cause → Bool
  | .endInValue | .endInList | .endInObject | .endInText => true
  | _ => false

end LinkPane.Json
