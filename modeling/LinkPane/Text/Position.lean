/-!
# Places in a text

A text is stored in UTF-8, and a place in it is told as the part of its octets that come before:

* `octets` -- the UTF-8 form of a text, `size` -- its length;
* `Position.after` -- line and column of the place behind some octets: the line is one more than the
  line feeds among them, the column is the number of octets behind the last line feed.

A place may lie inside a character: a reader that has looked at the first octet of a character only
stops right behind that octet.
-/

namespace LinkPane.Text

/-- The UTF-8 form of a text. -/
def octets (text : List Char) : List UInt8 :=
  text.flatMap String.utf8EncodeChar

@[simp] theorem octets_nil : octets [] = [] := rfl

@[simp] theorem octets_cons (c : Char) (text : List Char) :
    octets (c :: text) = String.utf8EncodeChar c ++ octets text := rfl

@[simp] theorem octets_append (a b : List Char) : octets (a ++ b) = octets a ++ octets b := by
  simp [octets]

/-- The number of octets of a text. -/
def size (text : List Char) : Nat :=
  (octets text).length

@[simp] theorem size_nil : size [] = 0 := rfl

theorem size_cons (c : Char) (text : List Char) : size (c :: text) = c.utf8Size + size text := by
  simp [size]

theorem size_append (a b : List Char) : size (a ++ b) = size a + size b := by
  simp [size]

/-- A line, counted from one, and a column, counted in octets from zero. -/
structure Position where
  line : Nat
  column : Nat
  deriving DecidableEq, Repr

/-- The line feed, in UTF-8. -/
def lineFeed : UInt8 := 10

/-- The place right behind the octets `read`. -/
def Position.after (read : List UInt8) : Position where
  line := 1 + read.count lineFeed
  column := (read.reverse.takeWhile (· != lineFeed)).length

@[simp] theorem Position.after_nil : Position.after [] = ⟨1, 0⟩ := rfl

end LinkPane.Text
