import LinkPane.Text.CodeRanges

/-!
# Characters that may be drawn as nothing

The code points of Unicode 17 with the property `Default_Ignorable_Code_Point`: where a font has no picture
of them, nothing is drawn in their place. Most are format characters, but four are letters: the fillers
U+115F, U+1160, U+3164 and U+FFA0 of the Hangul script.

* `ignorable` -- the ranges, ascending;
* `isIgnorable` -- the class of a character.
-/

namespace LinkPane.Text

/-- The ranges of code points with the property `Default_Ignorable_Code_Point`. -/
def ignorable : List (Nat × Nat) :=
  [(0xad, 0xad), (0x34f, 0x34f), (0x61c, 0x61c), (0x115f, 0x1160), (0x17b4, 0x17b5),
   (0x180b, 0x180f), (0x200b, 0x200f), (0x202a, 0x202e), (0x2060, 0x206f), (0x3164, 0x3164),
   (0xfe00, 0xfe0f), (0xfeff, 0xfeff), (0xffa0, 0xffa0), (0xfff0, 0xfff8), (0x1bca0, 0x1bca3),
   (0x1d173, 0x1d17a), (0xe0000, 0xe0fff)]

/-- A character that may be drawn as nothing. -/
def isIgnorable (c : Char) : Bool :=
  inRanges ignorable c.toNat

example : isIgnorable '\u115f' = true := by decide +kernel
example : isIgnorable '\u1161' = false := by decide +kernel

end LinkPane.Text
