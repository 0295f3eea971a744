import LinkPane.Proofs.Json.Grammar

/-!
# Well-formed texts

The forms of JSON by their outward shape alone: brackets may be nested to any depth, a number may be of any
size, and a code unit that ought to be one of a pair may stand alone. The inside of a value is kept as it is
written, one level deep:

* `Quoted` -- a text between its quotes;
* `Parts` -- the values in a list and the members of an object, each as its own segment of text;
* **`Wellformed`** -- the forms of a value, of the items of a list and of the members of an object;
* `Starts`, `Wellformed.starts`, `Wellformed.bracket` -- the characters that a value may begin with.

`Form` is the grammar of what is read as a value; this is the grammar of what can be passed over.
-/

namespace LinkPane.Json

/-! ## 1. Quoted texts -/

/-- The forms of one sign between quotes. -/
inductive Sign : List Char → Prop
  | plain {c : Char} (quote : c ≠ '"') (backslash : c ≠ '\\') (control : ' ' ≤ c) : Sign [c]
  | short {e c : Char} (known : (e, c) ∈ shortForms) : Sign ['\\', e]
  | unit {digits : List Char} {n : Nat} (h : CodeUnit digits n) : Sign ('\\' :: 'u' :: digits)

/-- A row of signs. -/
inductive Signs : List Char → Prop
  | nil : Signs []
  | cons {form forms : List Char} (head : Sign form) (tail : Signs forms) : Signs (form ++ forms)

theorem Sign.signs {form : List Char} (h : Sign form) : Signs form := by
  have hone := Signs.cons h .nil
  rwa [List.append_nil] at hone

theorem Signs.append {a b : List Char} (ha : Signs a) (hb : Signs b) : Signs (a ++ b) := by
  induction ha with
  | nil => exact hb
  | cons head _ ih =>
    rw [List.append_assoc]
    exact .cons head ih

/-- A form of a character is one sign, or two for a pair. -/
theorem Spelling.signs {form : List Char} {c : Char} (h : Spelling form c) : Signs form := by
  cases h with
  | plain quote backslash control => exact (Sign.plain quote backslash control).signs
  | short known => exact (Sign.short known).signs
  | unit h _ => exact (Sign.unit h).signs
  | pair hm _ hn _ => exact (Sign.unit hm).signs.append (Sign.unit hn).signs

theorem Spelled.signs {forms text : List Char} (h : Spelled forms text) : Signs forms := by
  induction h with
  | nil => exact .nil
  | cons head _ ih => exact head.signs.append ih

/-- A text with its quotes. -/
inductive Quoted : List Char → Prop
  | signs {inside : List Char} (h : Signs inside) : Quoted ('"' :: (inside ++ ['"']))

/-! ## 2. Values -/

/-- What a value is made of, as it is written: the items of a list, or the keys and values of an object. A key
    has its quotes. -/
inductive Parts
  | scalar
  | list (items : List (List Char))
  | object (members : List (List Char × List Char))

/-- What a segment of text may be, with the parts that it has. -/
inductive Segment
  | value (parts : Parts)
  | items (items : List (List Char))
  | members (members : List (List Char × List Char))

/-- **The well-formed texts** of values, and of the rows of items and of members in them. -/
inductive Wellformed : List Char → Segment → Prop
  | null : Wellformed ['n', 'u', 'l', 'l'] (.value .scalar)
  | yes : Wellformed ['t', 'r', 'u', 'e'] (.value .scalar)
  | no : Wellformed ['f', 'a', 'l', 's', 'e'] (.value .scalar)
  | number {form : List Char} {literal : Literal} (h : NumberForm form literal) :
      Wellformed form (.value .scalar)
  | text {form : List Char} (h : Quoted form) : Wellformed form (.value .scalar)
  | emptyList {a : List Char} (ha : Blank a) : Wellformed ('[' :: (a ++ [']'])) (.value (.list []))
  | list {inside : List Char} {items : List (List Char)} (h : Wellformed inside (.items items)) :
      Wellformed ('[' :: (inside ++ [']'])) (.value (.list items))
  | emptyObject {a : List Char} (ha : Blank a) : Wellformed ('{' :: (a ++ ['}'])) (.value (.object []))
  | object {inside : List Char} {members : List (List Char × List Char)}
      (h : Wellformed inside (.members members)) :
      Wellformed ('{' :: (inside ++ ['}'])) (.value (.object members))
  | lastItem {a form b : List Char} {parts : Parts} (ha : Blank a) (h : Wellformed form (.value parts))
      (hb : Blank b) : Wellformed (a ++ (form ++ b)) (.items [form])
  | moreItems {a form b rest : List Char} {parts : Parts} {items : List (List Char)} (ha : Blank a)
      (h : Wellformed form (.value parts)) (hb : Blank b) (tail : Wellformed rest (.items items)) :
      Wellformed (a ++ (form ++ (b ++ ',' :: rest))) (.items (form :: items))
  | lastMember {a key b c form d : List Char} {parts : Parts} (ha : Blank a) (hk : Quoted key) (hb : Blank b)
      (hc : Blank c) (h : Wellformed form (.value parts)) (hd : Blank d) :
      Wellformed (a ++ (key ++ (b ++ ':' :: (c ++ (form ++ d))))) (.members [(key, form)])
  | moreMembers {a key b c form d rest : List Char} {parts : Parts} {members : List (List Char × List Char)}
      (ha : Blank a) (hk : Quoted key) (hb : Blank b) (hc : Blank c) (h : Wellformed form (.value parts))
      (hd : Blank d) (tail : Wellformed rest (.members members)) :
      Wellformed (a ++ (key ++ (b ++ ':' :: (c ++ (form ++ (d ++ ',' :: rest))))))
        (.members ((key, form) :: members))

/-! ## 3. First characters -/

/-- The characters that a value may begin with. -/
def Starts (c : Char) : Prop :=
  c = 'n' ∨ c = 't' ∨ c = 'f' ∨ c = '"' ∨ c = '[' ∨ c = '{' ∨ c = '-' ∨ '0' ≤ c ∧ c ≤ '9'

/-- No value begins with a blank or with the punctuation of a list or an object. -/
theorem Starts.ne {c d : Char} (h : Starts c)
    (hd : d ∈ [' ', '\t', '\n', '\r', ',', ':', ']', '}']) : c ≠ d := by
  rintro rfl
  unfold Starts at h
  simp only [List.mem_cons, List.not_mem_nil, or_false] at hd
  rcases hd with rfl | rfl | rfl | rfl | rfl | rfl | rfl | rfl <;> exact absurd h (by decide)

/-- A number begins with a minus sign or a digit. -/
theorem NumberForm.starts {form : List Char} {literal : Literal} (h : NumberForm form literal) :
    ∃ c rest, form = c :: rest ∧ (c = '-' ∨ '0' ≤ c ∧ c ≤ '9') := by
  cases h with
  | parts hs hw _ _ =>
    cases hs with
    | minus => exact ⟨'-', _, rfl, .inl rfl⟩
    | absent =>
      cases hw with
      | zero => exact ⟨'0', _, rfl, .inr (by decide)⟩
      | digits h _ => exact ⟨_, _, rfl, .inr (h _ List.mem_cons_self)⟩

/-- The first character of a value. -/
theorem Wellformed.starts {form : List Char} {parts : Parts} (h : Wellformed form (.value parts)) :
    ∃ c rest, form = c :: rest ∧ Starts c := by
  cases h with
  | number h =>
    obtain ⟨c, rest, hform, hc⟩ := h.starts
    refine ⟨c, rest, hform, ?_⟩
    unfold Starts
    rcases hc with hc | hc
    · simp [hc]
    · simp [hc]
  | text h =>
    cases h with
    | signs h => exact ⟨_, _, rfl, by simp [Starts]⟩
  | _ => exact ⟨_, _, rfl, by simp [Starts]⟩

/-- A scalar begins with no bracket, and anything else with its own. -/
theorem Wellformed.bracket {form : List Char} {parts : Parts} (h : Wellformed form (.value parts)) :
    ∃ c rest, form = c :: rest ∧
      match parts with
      | .scalar => c ≠ '[' ∧ c ≠ '{'
      | .list _ => c = '['
      | .object _ => c = '{' := by
  cases h with
  | number h =>
    obtain ⟨c, rest, hform, hc⟩ := h.starts
    refine ⟨c, rest, hform, ?_, ?_⟩
    · rintro rfl
      exact absurd hc (by decide)
    · rintro rfl
      exact absurd hc (by decide)
  | text h =>
    cases h with
    | signs h => exact ⟨_, _, rfl, by decide, by decide⟩
  | emptyList | list => exact ⟨_, _, rfl, rfl⟩
  | emptyObject | object => exact ⟨_, _, rfl, rfl⟩
  | _ => exact ⟨_, _, rfl, by decide, by decide⟩

end LinkPane.Json
