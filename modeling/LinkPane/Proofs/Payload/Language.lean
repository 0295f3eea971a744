import LinkPane.Payload
import LinkPane.Proofs.Json.Soundness

/-!
# The language of payloads

Which payloads give links, and what is said of the others:

* `decode_eq_ok_iff`, `decode_eq_error_iff` -- a text is decoded iff the grammar derives a value for it, and
  refused at a place otherwise;
* `IsText.unique` -- the grammar derives one value for a text at most;
* `Unlisted.Of` -- the values of a kind that is no list;
* **`parseLinks_language`** -- the texts of lists are the payloads that give links, one for each item; a text
  of another value is refused by the kind of that value; and all other texts are refused at a place.
-/

namespace LinkPane

open Json

/-! ## 1. Texts -/

variable {payload : String} {value : Value}

theorem decode_eq_ok_iff :
    decode (readValue depthLimit) payload = .ok value ↔ IsText depthLimit payload.toList value := by
  rw [← readAll_eq_ok_iff, decode]
  cases readAll (readValue depthLimit) payload.toList with
  | ok v =>
    show Except.ok v = Except.ok value ↔ Except.ok v = Except.ok value
    rw [Except.ok.injEq, Except.ok.injEq]
  | error fault => exact ⟨fun h => (by cases h), fun h => (by cases h)⟩

theorem decode_eq_error_iff : (∃ error, decode (readValue depthLimit) payload = .error error) ↔
    ¬ ∃ value, IsText depthLimit payload.toList value := by
  simp only [← decode_eq_ok_iff]
  cases decode (readValue depthLimit) payload with
  | ok v => simp
  | error error => simp

/-- **The grammar is unambiguous**: it derives one value for a text at most. -/
theorem Json.IsText.unique {room : Nat} {text : List Char} {v w : Value} (hv : IsText room text v)
    (hw : IsText room text w) : v = w := by
  rw [← readAll_eq_ok_iff] at hv hw
  exact Except.ok.inj (hv.symm.trans hw)

/-! ## 2. Kinds -/

/-- The values of a kind that is no list. -/
inductive Unlisted.Of : Unlisted → Value → Prop
  | null : Of .null .null
  | boolean {b : Bool} : Of .boolean (.boolean b)
  | number {n : Numeral} : Of .number (.number n)
  | text {s : String} : Of .text (.text s)
  | object {members : List (String × Value)} : Of .object (.object members)

theorem items_eq_error_iff {kind : Unlisted} : value.items = .error kind ↔ kind.Of value := by
  constructor
  · intro h
    cases value <;> cases h <;> constructor
  · intro h
    cases h <;> rfl

/-! ## 3. Payloads -/

theorem parseLinks_eq_ok_iff {links : List Link} : parseLinks payload = .ok links ↔
    ∃ items, IsText depthLimit payload.toList (.list items) ∧ items.map Link.ofValue = links := by
  simp only [← decode_eq_ok_iff, parseLinks]
  cases decode (readValue depthLimit) payload with
  | error error => simp
  | ok value =>
    cases value <;> simp [Value.items]

theorem parseLinks_eq_notList_iff {kind : Unlisted} : parseLinks payload = .error (.notList kind) ↔
    ∃ value, kind.Of value ∧ IsText depthLimit payload.toList value := by
  simp only [← decode_eq_ok_iff, ← items_eq_error_iff, parseLinks]
  cases decode (readValue depthLimit) payload with
  | error error => simp
  | ok value =>
    cases h : value.items <;> simp [h]

theorem parseLinks_eq_unreadable_iff : (∃ error, parseLinks payload = .error (.unreadable error)) ↔
    ¬ ∃ value, IsText depthLimit payload.toList value := by
  rw [← decode_eq_error_iff, parseLinks]
  cases decode (readValue depthLimit) payload with
  | error error => simp
  | ok value =>
    cases h : value.items <;> simp [h]

/-! ## 4. Messages -/

/-- The payload is refused with that message. -/
def Refused (payload message : String) : Prop :=
  ∃ rejection, parseLinks payload = .error rejection ∧ rejection.message = message

/-- What is said of a value of a kind that is no list. -/
def unlistedMessage (kind : Unlisted) : String :=
  "Parse error: expected an array of links, found " ++ kind.name

/-- What is said of a text with a fault at a place. -/
def placedMessage (cause : Cause) (line column : Nat) : String :=
  "Parse error: " ++ (cause.message ++ " at line " ++ toString line ++ " column " ++ toString column)

/-- A number ends in a digit, and so does all that ends in a number. -/
theorem isDigit_getLast?_append_toString (s : String) (n : Nat) :
    ∃ c, (s ++ toString n).toList.getLast? = some c ∧ c.isDigit = true := by
  have hne : Nat.toDigits 10 n ≠ [] := Nat.toDigits_ne_nil
  refine ⟨(Nat.toDigits 10 n).getLast hne, ?_,
    Nat.isDigit_of_mem_toDigits (by decide) (by decide) (List.getLast_mem hne)⟩
  rw [String.toList_append, Nat.toString_eq_repr, Nat.toList_repr, List.getLast?_append,
    List.getLast?_eq_some_getLast hne, Option.some_or]

/-- No name of a kind ends in a digit. -/
theorem not_isDigit_getLast?_name (s : String) (kind : Unlisted) :
    ∃ c, (s ++ kind.name).toList.getLast? = some c ∧ c.isDigit = false := by
  rw [String.toList_append, List.getLast?_append]
  cases kind with
  | null => exact ⟨'l', rfl, rfl⟩
  | boolean => exact ⟨'n', rfl, rfl⟩
  | number => exact ⟨'r', rfl, rfl⟩
  | text => exact ⟨'g', rfl, rfl⟩
  | object => exact ⟨'t', rfl, rfl⟩

/-- The two messages never agree. -/
theorem unlistedMessage_ne_placedMessage (kind : Unlisted) (cause : Cause) (line column : Nat) :
    unlistedMessage kind ≠ placedMessage cause line column := by
  intro h
  obtain ⟨c, hc, hletter⟩ :=
    not_isDigit_getLast?_name "Parse error: expected an array of links, found " kind
  obtain ⟨d, hd, hdigit⟩ := isDigit_getLast?_append_toString
    ("Parse error: " ++ (cause.message ++ " at line " ++ toString line ++ " column ")) column
  have hlast : some c = some d := by
    rw [← hc, ← hd]
    show (unlistedMessage kind).toList.getLast? = _
    rw [h, placedMessage]
    simp only [String.append_assoc]
  rw [Option.some.inj hlast, hdigit] at hletter
  cases hletter

theorem unlistedMessage_inj {kind kind' : Unlisted} (h : unlistedMessage kind = unlistedMessage kind') :
    kind = kind' := by
  have hname : kind.name = kind'.name := (String.append_right_inj _).mp h
  cases kind <;> cases kind' <;> first | rfl | simp [Unlisted.name] at hname

/-- The wording of a refusal tells its kind. -/
theorem message_eq_unlistedMessage_iff {rejection : Rejection} {kind : Unlisted} :
    rejection.message = unlistedMessage kind ↔ rejection = .notList kind := by
  cases rejection with
  | unreadable error =>
    have hne := unlistedMessage_ne_placedMessage kind error.cause error.position.line error.position.column
    exact ⟨fun h => absurd h.symm hne, nofun⟩
  | notList found =>
    exact ⟨fun h => congrArg Rejection.notList (unlistedMessage_inj h), fun h => by cases h; rfl⟩

theorem exists_message_eq_placedMessage_iff {rejection : Rejection} :
    (∃ cause line column, rejection.message = placedMessage cause line column) ↔
      ∃ error, rejection = .unreadable error := by
  cases rejection with
  | unreadable error =>
    exact ⟨fun _ => ⟨error, rfl⟩,
      fun _ => ⟨error.cause, error.position.line, error.position.column, rfl⟩⟩
  | notList found =>
    exact ⟨fun ⟨cause, line, column, h⟩ =>
      absurd h (unlistedMessage_ne_placedMessage found cause line column), nofun⟩

/-! ## 5. The language -/

/-- **The language of payloads**: a payload gives links iff it is a text of a list, and then one for each
    item; it is refused without a place iff it is a text of another value, by the kind of that; and it is
    refused with a line and a column iff it is no text of any value. -/
theorem parseLinks_language (payload : String) :
    ((∃ links, parseLinks payload = .ok links) ↔
      ∃ items, IsText depthLimit payload.toList (.list items)) ∧
    (∀ n, (∃ links, parseLinks payload = .ok links ∧ links.length = n) ↔
      ∃ items, IsText depthLimit payload.toList (.list items) ∧ items.length = n) ∧
    (∀ kind, Refused payload (unlistedMessage kind) ↔
      ∃ value, kind.Of value ∧ IsText depthLimit payload.toList value) ∧
    ((∃ cause line column, Refused payload (placedMessage cause line column)) ↔
      ¬ ∃ value, IsText depthLimit payload.toList value) := by
  refine ⟨?_, fun n => ?_, fun kind => ?_, ?_⟩
  · simp only [parseLinks_eq_ok_iff]
    exact ⟨fun ⟨_, items, h, _⟩ => ⟨items, h⟩, fun ⟨items, h⟩ => ⟨_, items, h, rfl⟩⟩
  · simp only [parseLinks_eq_ok_iff]
    constructor
    · rintro ⟨_, ⟨items, h, rfl⟩, hn⟩
      exact ⟨items, h, by rwa [List.length_map] at hn⟩
    · rintro ⟨items, h, hn⟩
      exact ⟨_, ⟨items, h, rfl⟩, by rwa [List.length_map]⟩
  · rw [← parseLinks_eq_notList_iff]
    simp only [Refused, message_eq_unlistedMessage_iff, exists_eq_right]
  · rw [← parseLinks_eq_unreadable_iff]
    constructor
    · rintro ⟨cause, line, column, rejection, hparse, hmessage⟩
      obtain ⟨error, rfl⟩ := exists_message_eq_placedMessage_iff.mp ⟨cause, line, column, hmessage⟩
      exact ⟨error, hparse⟩
    · rintro ⟨error, hparse⟩
      exact ⟨error.cause, error.position.line, error.position.column, _, hparse, rfl⟩

end LinkPane
