import LinkPane.Proofs.Json.Records
import LinkPane.Proofs.Json.Soundness

/-!
# The kinds of values

The first character of a value tells its kind. A reader that expects a value of some kinds refuses a value of
any other:

* `Kind`, `Kind.of` -- the kinds, and that of a value as it is written;
* `Takes` -- the kinds of value that a reader takes, by how it is put together;
* **`Takes.settles_error`**, `Takes.decode_error` -- a value of another kind is a fault.
-/

namespace LinkPane.Json

/-- The kinds of values. -/
inductive Kind
  | null
  | boolean
  | number
  | text
  | list
  | object
  deriving DecidableEq, Repr

/-- The kind of a value, by its first character. -/
def Kind.of : List Char → Kind
  | 'n' :: _ => .null
  | 't' :: _ => .boolean
  | 'f' :: _ => .boolean
  | '"' :: _ => .text
  | '[' :: _ => .list
  | '{' :: _ => .object
  | _ => .number

/-- The kinds of value that a reader takes. -/
inductive Takes : {α : Type} → Reader α → List Kind → Prop
  | text : Takes readText [.text]
  | option {α : Type} {read : Reader α} {kinds : List Kind} (h : Takes read kinds) :
      Takes (readOption read) (.null :: kinds)
  | variant {α : Type} {known : List (String × α)} : Takes (readVariant known) [.text, .object]
  | record {σ : Type} {shape : Shape σ} : Takes shape.read [.list, .object]

section

variable {α : Type} {read : Reader α} {kinds : List Kind} {form : List Char} {parts : Parts}

/-- What is read as a text begins with a quote. -/
theorem kind_of_readValue (h : Wellformed form (.value parts)) {s : String}
    (hread : outcome (readValue depthLimit) form = .ok (.text s)) : Kind.of form = .text := by
  have hdecode := ((steady_readValue depthLimit).decode_ofList_eq_ok_iff h).mpr hread
  have hall : readAll (readValue depthLimit) form = .ok (.text s) := by
    rw [decode, String.toList_ofList] at hdecode
    cases hall : readAll (readValue depthLimit) form with
    | error fault =>
      rw [hall] at hdecode
      cases hdecode
    | ok v =>
      rw [hall] at hdecode
      rw [Except.ok.inj hdecode]
  obtain ⟨a, form', b, rfl, ha, hform, -⟩ := isText_of_readAll hall
  -- nothing stands before the quote, since a value begins with no blank
  have hdrop := h.dropBlank_eq blank_nil []
  cases hform with
  | text hs =>
    rw [List.append_nil, List.nil_append, List.cons_append, dropBlank_append ha rfl] at hdrop
    rw [List.cons_append, ← hdrop]
    rfl

theorem settles_readText_error (h : Wellformed form (.value parts)) (hkind : Kind.of form ≠ .text) :
    ∃ cause, Settles readText form (.error cause) := by
  cases parts with
  | list items => exact ⟨_, settles_readScalar_list "a string" Value.text? h⟩
  | object members => exact ⟨_, settles_readScalar_object "a string" Value.text? h⟩
  | scalar =>
    have hsettles := settles_readScalar "a string" Value.text? h
    cases hvalue : outcome (readValue depthLimit) form with
    | error cause =>
      rw [hvalue] at hsettles
      exact ⟨cause, hsettles⟩
    | ok v =>
      rw [hvalue] at hsettles
      cases v with
      | text s => exact absurd (kind_of_readValue h hvalue) hkind
      | _ => exact ⟨_, hsettles⟩

/-- **A value of another kind is a fault.** -/
theorem Takes.settles_error (h : Takes read kinds) (hform : Wellformed form (.value parts))
    (hkind : Kind.of form ∉ kinds) : ∃ cause, Settles read form (.error cause) := by
  induction h with
  | text => exact settles_readText_error hform fun heq => hkind (by simp [heq])
  | option _ ih =>
    obtain ⟨cause, hcause⟩ := ih fun hmem => hkind (List.mem_cons_of_mem _ hmem)
    have hn : ∀ more, form ≠ 'n' :: more := by
      rintro more rfl
      exact hkind List.mem_cons_self
    exact ⟨cause, settles_readOption_some hform hn hcause⟩
  | variant =>
    obtain ⟨c, more, rfl, -⟩ := hform.starts
    refine ⟨_, settles_readVariant_other hform ?_ ?_⟩
    · rintro rfl
      exact hkind (by simp [Kind.of])
    · rintro rfl
      exact hkind (by simp [Kind.of])
  | @record σ shape =>
    obtain ⟨c, more, rfl, hc⟩ := hform.bracket
    cases parts with
    | list items =>
      obtain rfl : c = '[' := hc
      exact absurd (by simp [Kind.of]) hkind
    | object members =>
      obtain rfl : c = '{' := hc
      exact absurd (by simp [Kind.of]) hkind
    | scalar =>
      have hsettles : Settles shape.read (c :: more) _ := settles_scalar hform
      have hread := settles_readScalar ("struct " ++ shape.name) (fun _ => (none : Option σ)) hform
      rw [hread.outcome_eq] at hsettles
      cases hvalue : outcome (readValue depthLimit) (c :: more) with
      | error cause =>
        rw [hvalue] at hsettles
        exact ⟨cause, hsettles⟩
      | ok v =>
        rw [hvalue] at hsettles
        exact ⟨_, hsettles⟩

theorem Takes.decode_error (h : Takes read kinds) (hform : Wellformed form (.value parts))
    (hkind : Kind.of form ∉ kinds) : ∃ error, decode read (String.ofList form) = .error error := by
  obtain ⟨cause, hsettles⟩ := h.settles_error hform hkind
  have hdecode := hsettles.decode_ofList_eq
  cases hresult : decode read (String.ofList form) with
  | error error => exact ⟨error, rfl⟩
  | ok x =>
    rw [hresult] at hdecode
    cases hdecode

end

end LinkPane.Json
