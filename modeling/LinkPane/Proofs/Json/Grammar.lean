import LinkPane.Json.Value

/-!
# The grammar of JSON

Which texts are values, and of what: by the forms that a text may have, whatever reads it.

* `Blank` -- what may stand between the parts of a value;
* `Spelling`, `Spelled` -- the forms of one character between quotes, and of a text;
* `NumberForm` -- the forms of a number, with the literal that they show;
* **`Form`** -- the forms of a value, of the items of a list and of the members of an object. A number is in
  range iff its literal stands for one (`Literal.numeral?`), which is all that the grammar asks of it;
* `IsText` -- a whole text of a value, with blanks around it.

The number in front of a `Form` is the room for brackets: no more than that are open at once inside it.
-/

namespace LinkPane.Json

/-! ## 1. Blanks -/

/-- A row of spaces, tabs, line feeds and carriage returns. -/
def Blank (text : List Char) : Prop :=
  ∀ c ∈ text, c = ' ' ∨ c = '\t' ∨ c = '\n' ∨ c = '\r'

theorem blank_nil : Blank [] := fun _ h => absurd h List.not_mem_nil

theorem Blank.append {a b : List Char} (ha : Blank a) (hb : Blank b) : Blank (a ++ b) := fun c h =>
  (List.mem_append.mp h).elim (ha c) (hb c)

/-! ## 2. Quoted texts -/

/-- A hexadecimal digit and its value. -/
inductive HexDigit : Char → Nat → Prop
  | decimal {c : Char} (low : '0' ≤ c) (high : c ≤ '9') : HexDigit c (c.toNat - '0'.toNat)
  | lower {c : Char} (low : 'a' ≤ c) (high : c ≤ 'f') : HexDigit c (c.toNat - 'a'.toNat + 10)
  | upper {c : Char} (low : 'A' ≤ c) (high : c ≤ 'F') : HexDigit c (c.toNat - 'A'.toNat + 10)

/-- A code unit in four digits. -/
inductive CodeUnit : List Char → Nat → Prop
  | digits {a b c d : Char} {i j k l : Nat} (ha : HexDigit a i) (hb : HexDigit b j) (hc : HexDigit c k)
      (hd : HexDigit d l) : CodeUnit [a, b, c, d] (4096 * i + 256 * j + 16 * k + l)

/-- What may follow a backslash, and the character that it stands for there. -/
def shortForms : List (Char × Char) :=
  [('"', '"'), ('\\', '\\'), ('/', '/'), ('b', '\x08'), ('f', '\x0c'), ('n', '\n'), ('r', '\r'), ('t', '\t')]

/-- The forms of one character between quotes: itself, a short form, its code unit, or its two code units, of
    which neither stands alone. -/
inductive Spelling : List Char → Char → Prop
  | plain {c : Char} (quote : c ≠ '"') (backslash : c ≠ '\\') (control : ' ' ≤ c) : Spelling [c] c
  | short {e c : Char} (known : (e, c) ∈ shortForms) : Spelling ['\\', e] c
  | unit {digits : List Char} {n : Nat} (h : CodeUnit digits n) (alone : ¬ (0xd800 ≤ n ∧ n < 0xe000)) :
      Spelling ('\\' :: 'u' :: digits) (Char.ofNat n)
  | pair {first second : List Char} {m n : Nat} (hm : CodeUnit first m) (leads : 0xd800 ≤ m ∧ m < 0xdc00)
      (hn : CodeUnit second n) (trails : 0xdc00 ≤ n ∧ n < 0xe000) :
      Spelling ('\\' :: 'u' :: (first ++ '\\' :: 'u' :: second))
        (Char.ofNat (0x10000 + (m - 0xd800) * 0x400 + (n - 0xdc00)))

/-- The forms of a text between quotes, character by character. -/
inductive Spelled : List Char → List Char → Prop
  | nil : Spelled [] []
  | cons {form forms text : List Char} {c : Char} (head : Spelling form c) (tail : Spelled forms text) :
      Spelled (form ++ forms) (c :: text)

theorem Spelled.append {a b s t : List Char} (ha : Spelled a s) (hb : Spelled b t) :
    Spelled (a ++ b) (s ++ t) := by
  induction ha with
  | nil => exact hb
  | cons head _ ih =>
    rw [List.append_assoc, List.cons_append]
    exact .cons head ih

/-- One more character behind a text. -/
theorem Spelled.snoc {a s form : List Char} {c : Char} (ha : Spelled a s) (h : Spelling form c) :
    Spelled (a ++ form) (s ++ [c]) := by
  have := ha.append (.cons h .nil)
  rwa [List.append_nil] at this

/-! ## 3. Numbers -/

/-- A row of decimal digits. -/
def Decimals (text : List Char) : Prop :=
  ∀ c ∈ text, '0' ≤ c ∧ c ≤ '9'

/-- A minus sign, or none. -/
inductive Signed : List Char → Bool → Prop
  | absent : Signed [] false
  | minus : Signed ['-'] true

/-- The digits in front of the point: a zero alone, or digits of which the first is no zero. -/
inductive Whole : List Char → Prop
  | zero : Whole ['0']
  | digits {c : Char} {digits : List Char} (h : Decimals (c :: digits)) (lead : c ≠ '0') : Whole (c :: digits)

/-- A point and digits, or neither. -/
inductive Fraction : List Char → List Char → Prop
  | absent : Fraction [] []
  | digits {digits : List Char} (h : Decimals digits) (nonempty : digits ≠ []) :
      Fraction ('.' :: digits) digits

/-- The sign of an exponent. -/
inductive ExponentSign : List Char → Bool → Prop
  | absent : ExponentSign [] false
  | plus : ExponentSign ['+'] false
  | minus : ExponentSign ['-'] true

/-- A mark, a sign and digits, or nothing. -/
inductive ExponentForm : List Char → Option Exponent → Prop
  | absent : ExponentForm [] none
  | digits {mark : Char} {sign digits : List Char} {negative : Bool} (hm : mark = 'e' ∨ mark = 'E')
      (hs : ExponentSign sign negative) (h : Decimals digits) (nonempty : digits ≠ []) :
      ExponentForm (mark :: (sign ++ digits)) (some ⟨negative, digits⟩)

/-- The forms of a number. -/
inductive NumberForm : List Char → Literal → Prop
  | parts {sign whole point digits mark : List Char} {negative : Bool} {exponent : Option Exponent}
      (hs : Signed sign negative) (hw : Whole whole) (hf : Fraction point digits)
      (he : ExponentForm mark exponent) :
      NumberForm (sign ++ (whole ++ (point ++ mark))) ⟨negative, whole, digits, exponent⟩

/-! ## 4. Values -/

/-- What a piece of text may be a form of. -/
inductive Part
  | value (value : Value)
  | items (items : List Value)
  | members (members : List (String × Value))

/-- **The forms of values**, and of the rows of items and of members in them. -/
inductive Form : Nat → List Char → Part → Prop
  | null {room : Nat} : Form room ['n', 'u', 'l', 'l'] (.value .null)
  | yes {room : Nat} : Form room ['t', 'r', 'u', 'e'] (.value (.boolean true))
  | no {room : Nat} : Form room ['f', 'a', 'l', 's', 'e'] (.value (.boolean false))
  | number {room : Nat} {form : List Char} {literal : Literal} {n : Numeral} (h : NumberForm form literal)
      (range : literal.numeral? = some n) : Form room form (.value (.number n))
  | text {room : Nat} {form text : List Char} (h : Spelled form text) :
      Form room ('"' :: (form ++ ['"'])) (.value (.text (String.ofList text)))
  | emptyList {room : Nat} {a : List Char} (ha : Blank a) :
      Form (room + 1) ('[' :: (a ++ [']'])) (.value (.list []))
  | list {room : Nat} {inside : List Char} {items : List Value} (h : Form room inside (.items items)) :
      Form (room + 1) ('[' :: (inside ++ [']'])) (.value (.list items))
  | emptyObject {room : Nat} {a : List Char} (ha : Blank a) :
      Form (room + 1) ('{' :: (a ++ ['}'])) (.value (.object []))
  | object {room : Nat} {inside : List Char} {members : List (String × Value)}
      (h : Form room inside (.members members)) :
      Form (room + 1) ('{' :: (inside ++ ['}'])) (.value (.object members))
  | lastItem {room : Nat} {a form b : List Char} {item : Value} (ha : Blank a)
      (h : Form room form (.value item)) (hb : Blank b) : Form room (a ++ (form ++ b)) (.items [item])
  | moreItems {room : Nat} {a form b rest : List Char} {item : Value} {items : List Value} (ha : Blank a)
      (h : Form room form (.value item)) (hb : Blank b) (tail : Form room rest (.items items)) :
      Form room (a ++ (form ++ (b ++ ',' :: rest))) (.items (item :: items))
  | lastMember {room : Nat} {a key b c form d name : List Char} {value : Value} (ha : Blank a)
      (hk : Spelled key name) (hb : Blank b) (hc : Blank c) (h : Form room form (.value value))
      (hd : Blank d) :
      Form room (a ++ '"' :: (key ++ '"' :: (b ++ ':' :: (c ++ (form ++ d)))))
        (.members [(String.ofList name, value)])
  | moreMembers {room : Nat} {a key b c form d rest name : List Char} {value : Value}
      {members : List (String × Value)} (ha : Blank a) (hk : Spelled key name) (hb : Blank b) (hc : Blank c)
      (h : Form room form (.value value)) (hd : Blank d) (tail : Form room rest (.members members)) :
      Form room (a ++ '"' :: (key ++ '"' :: (b ++ ':' :: (c ++ (form ++ (d ++ ',' :: rest))))))
        (.members ((String.ofList name, value) :: members))

/-- A text is one value, with blanks around it. -/
def IsText (room : Nat) (text : List Char) (value : Value) : Prop :=
  ∃ a form b, text = a ++ (form ++ b) ∧ Blank a ∧ Form room form (.value value) ∧ Blank b

end LinkPane.Json
