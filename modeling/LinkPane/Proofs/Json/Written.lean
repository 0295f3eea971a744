import LinkPane.Json.Writer
import LinkPane.Proofs.Json.Quoted

/-!
# What is written is in the grammar

* `spelling_writeChar`, **`form_writeText`** -- an escaped text is a form of that text, whatever characters it
  has;
* `form_intercalate`, **`form_writeList`** -- written items between brackets are a form of their list;
* `members_intercalate`, **`form_writeObject`** -- the same for members.
-/

namespace LinkPane.Json

/-! ## 1. Texts -/

/-- The digits of a number below sixteen. -/
theorem hexDigit_digitChar {n : Nat} (h : n < 16) : HexDigit (Nat.digitChar n) n := by
  have hvalues : ∀ n : Fin 16, hexValue? (Nat.digitChar n) = some n.val := by decide
  exact hexValue?_eq_some_iff.mp (hvalues ⟨n, h⟩)

/-- Every escape that is written is one that may be read. -/
theorem mem_shortForms {c short : Char} (h : writtenEscapes.lookup c = some short) :
    (short, c) ∈ shortForms := by
  have hmem := mem_of_lookup h
  simp only [writtenEscapes, List.mem_cons, Prod.mk.injEq, List.not_mem_nil, or_false] at hmem
  rcases hmem with ⟨rfl, rfl⟩ | ⟨rfl, rfl⟩ | ⟨rfl, rfl⟩ | ⟨rfl, rfl⟩ | ⟨rfl, rfl⟩ | ⟨rfl, rfl⟩ | ⟨rfl, rfl⟩ <;>
    simp [shortForms]

/-- **A written character is a form of that character.** -/
theorem spelling_writeChar (c : Char) : Spelling (writeChar c) c := by
  unfold writeChar
  split
  · rename_i short hshort
    exact .short (mem_shortForms hshort)
  · rename_i hnone
    have hne : ∀ d short, (d, short) ∈ writtenEscapes → c ≠ d := fun d short hmem =>
      bne_iff_ne.mp (List.lookup_eq_none_iff.mp hnone (d, short) hmem)
    split
    · rename_i hcontrol
      -- two digits are enough, behind two zeros
      have hlt : c.toNat < 32 := hcontrol
      have hunit := CodeUnit.digits (hexDigit_digitChar (n := 0) (by decide))
        (hexDigit_digitChar (n := 0) (by decide)) (hexDigit_digitChar (n := c.toNat / 16) (by omega))
        (hexDigit_digitChar (n := c.toNat % 16) (by omega))
      have hvalue : 4096 * 0 + 256 * 0 + 16 * (c.toNat / 16) + c.toNat % 16 = c.toNat := by omega
      rw [hvalue] at hunit
      have := Spelling.unit hunit (by omega)
      rwa [Char.ofNat_toNat] at this
    · rename_i hcontrol
      exact .plain (hne '"' '"' (by simp [writtenEscapes])) (hne '\\' '\\' (by simp [writtenEscapes]))
        (Char.not_lt.mp hcontrol)

theorem spelled_writeChars (text : List Char) : Spelled (text.flatMap writeChar) text := by
  induction text with
  | nil => exact .nil
  | cons c text ih => exact .cons (spelling_writeChar c) ih

/-- **A written text is a form of that text.** -/
theorem form_writeText {room : Nat} (s : String) : Form room (writeText s) (.value (.text s)) := by
  have h : Form room (writeText s) (.value (.text (String.ofList s.toList))) :=
    .text (spelled_writeChars s.toList)
  rwa [String.ofList_toList] at h

/-! ## 2. Brackets -/

section Rows

variable {α : Type} {room : Nat} {write : α → List Char} {value : α → Value} {name : α → String}

/-- Written items in a row, with commas between them. -/
theorem form_intercalate (h : ∀ x, Form room (write x) (.value (value x))) (x : α) (xs : List α) :
    Form room ([','].intercalate ((x :: xs).map write)) (.items ((x :: xs).map value)) := by
  induction xs generalizing x with
  | nil =>
    have := Form.lastItem blank_nil (h x) blank_nil
    simpa using this
  | cons y ys ih =>
    have := Form.moreItems blank_nil (h x) blank_nil (ih y)
    simpa [List.intercalate_cons_cons] using this

/-- **A written list is a form of that list.** -/
theorem form_writeList (h : ∀ x, Form room (write x) (.value (value x))) (xs : List α) :
    Form (room + 1) (writeList (xs.map write)) (.value (.list (xs.map value))) := by
  cases xs with
  | nil => exact .emptyList blank_nil
  | cons x xs => exact .list (form_intercalate h x xs)

/-- Written members in a row. -/
theorem members_intercalate (h : ∀ x, Form room (write x) (.value (value x))) (x : α) (xs : List α) :
    Form room ([','].intercalate ((x :: xs).map fun x => writeText (name x) ++ ':' :: write x))
      (.members ((x :: xs).map fun x => (name x, value x))) := by
  have hkey : ∀ x, Spelled ((name x).toList.flatMap writeChar) (name x).toList := fun x => spelled_writeChars _
  induction xs generalizing x with
  | nil =>
    have := Form.lastMember blank_nil (hkey x) blank_nil blank_nil (h x) blank_nil
    simpa [writeText] using this
  | cons y ys ih =>
    have := Form.moreMembers blank_nil (hkey x) blank_nil blank_nil (h x) blank_nil (ih y)
    simpa [writeText, List.intercalate_cons_cons] using this

/-- **A written object is a form of that object.** -/
theorem form_writeObject (h : ∀ x, Form room (write x) (.value (value x))) (xs : List α) :
    Form (room + 1) (writeObject (xs.map fun x => (name x, write x)))
      (.value (.object (xs.map fun x => (name x, value x)))) := by
  cases xs with
  | nil => exact .emptyObject blank_nil
  | cons x xs =>
    have hmembers : Form room _ (.members ((x :: xs).map fun x => (name x, value x))) :=
      members_intercalate h x xs
    have hobject := Form.object hmembers
    simpa only [writeObject, List.map_map, Function.comp_def, List.cons_append] using hobject

end Rows

end LinkPane.Json
