/-!
# Markup

A page is a row of tags, texts and markers, in the order of the document.

* `Attribute`, `Piece` -- the parts;
* `element`, `empty` -- an element around its content, an element that has none;
* `render` -- the text of a page. A text hides `&`, `<` and `>`, the value of an attribute the double quote
  as well;
* an empty text is written as a space, and a style ends in one more semicolon.
-/

namespace LinkPane.Markup

/-! ## 1. Pieces -/

/-- An attribute of a tag. -/
inductive Attribute
  | plain (name value : String)
  | style (css : String)
  deriving DecidableEq, Repr

/-- A part of a page. -/
inductive Piece
  | opening (tag : String) (attributes : List Attribute)
  | closing (tag : String)
  | text (content : String)
  /-- The end of a list whose length may change. -/
  | marker
  deriving DecidableEq, Repr

/-- An element around its content. -/
def element (tag : String) (attributes : List Attribute) (content : List Piece) : List Piece :=
  .opening tag attributes :: content ++ [.closing tag]

/-- An element without content and without an end. -/
def empty (tag : String) (attributes : List Attribute) : List Piece :=
  [.opening tag attributes]

/-- The items of a list and the marker at its end. -/
def listed (items : List (List Piece)) : List Piece :=
  items.flatten ++ [.marker]

/-! ## 2. The text of a page -/

/-- One character of a text. -/
def escapeChar (c : Char) : List Char :=
  if c = '&' then ['&', 'a', 'm', 'p', ';']
  else if c = '<' then ['&', 'l', 't', ';']
  else if c = '>' then ['&', 'g', 't', ';']
  else [c]

/-- One character of the value of an attribute. -/
def escapeQuotedChar (c : Char) : List Char :=
  if c = '"' then ['&', 'q', 'u', 'o', 't', ';'] else escapeChar c

/-- A text. -/
def escape (text : List Char) : List Char :=
  text.flatMap escapeChar

/-- The value of an attribute. -/
def escapeQuoted (value : List Char) : List Char :=
  value.flatMap escapeQuotedChar

/-- A text that is never empty. -/
def visible (text : List Char) : List Char :=
  if text = [] then [' '] else text

/-- An attribute with the space before it. -/
def Attribute.render : Attribute → List Char
  | .plain name value =>
    ' ' :: name.toList ++ ['=', '"'] ++ escapeQuoted value.toList ++ ['"']
  | .style css =>
    ' ' :: "style".toList ++ ['=', '"'] ++ escapeQuoted (css.toList ++ [';']) ++ ['"']

/-- A part of a page. -/
def Piece.render : Piece → List Char
  | .opening tag attributes => '<' :: tag.toList ++ attributes.flatMap Attribute.render ++ ['>']
  | .closing tag => ['<', '/'] ++ tag.toList ++ ['>']
  | .text content => escape (visible content.toList)
  | .marker => ['<', '!', '>']

/-- A page. -/
def render (pieces : List Piece) : List Char :=
  pieces.flatMap Piece.render

/-- A page as a text. -/
def page (pieces : List Piece) : String :=
  String.ofList (render pieces)

@[simp] theorem render_nil : render [] = [] := rfl

@[simp] theorem render_cons (piece : Piece) (pieces : List Piece) :
    render (piece :: pieces) = piece.render ++ render pieces := rfl

@[simp] theorem render_append (a b : List Piece) : render (a ++ b) = render a ++ render b := by
  simp [render]

end LinkPane.Markup
