import LinkPane.Proofs.Json.TwoForms
import LinkPane.Proofs.Record.RoundTrip

/-!
# Records in lists and in objects

A link, a style or a theme may be given in a list of values for its first fields, or in an object of the same
values under the names of these fields. It makes no difference which, and neither does it for the styles inside a
theme:

* `Alike`, `AlikeRow`, `AlikeMember` -- two texts for a field, for all fields, or under a name: the same ones, or
  the two forms of a record;
* **`Alike.outcome_eq`** -- a field makes the same of both;
* `decode_listText_long`, `decode_long_member`, `decode_long_item` -- a list with more items than the record has
  fields, alone and for a field of another record of either form;
* **`decode_twoForms`** -- both forms decode to the same records, alone and inside of others, and a list that is
  too long is a fault wherever it stands for a record.
-/

namespace LinkPane

open Json

section

variable {σ : Type} {shape : Shape σ} {field : Json.Field σ} {fields : List (Json.Field σ)} {form form' : List Char}
  {items items' : List (List Char)} {record v : σ}

/-! ## 1. Texts for a field -/

/-- Two texts for a field: the same one; or, for a field that is a record itself, a list of values for its first
    fields and the object of them. -/
inductive Alike {σ : Type} : Json.Field σ → List Char → List Char → Prop
  | same {field : Json.Field σ} {form : List Char} : Alike field form form
  | listed {τ : Type} {inner : Shape τ} {name : String} {get : σ → τ} {set : τ → σ → σ}
      {items : List (List Char)} (hinner : Styled inner) (hitems : Values items)
      (hlength : items.length ≤ inner.fields.length) :
      Alike (inner.toField name get set) (writeList items) (writeObject (inner.named items))
  | named {τ : Type} {inner : Shape τ} {name : String} {get : σ → τ} {set : τ → σ → σ}
      {items : List (List Char)} (hinner : Styled inner) (hitems : Values items)
      (hlength : items.length ≤ inner.fields.length) :
      Alike (inner.toField name get set) (writeObject (inner.named items)) (writeList items)

/-- Texts for the first of some fields, each alike in its place. -/
inductive AlikeRow {σ : Type} : List (Json.Field σ) → List (List Char) → List (List Char) → Prop
  | nil {fields : List (Json.Field σ)} : AlikeRow fields [] []
  | cons {field : Json.Field σ} {fields : List (Json.Field σ)} {form form' : List Char}
      {items items' : List (List Char)} (head : Alike field form form') (tail : AlikeRow fields items items') :
      AlikeRow (field :: fields) (form :: items) (form' :: items')

/-- Two members of one name, alike for the field of that name, if there is one. -/
def AlikeMember {σ : Type} (shape : Shape σ) (member member' : String × List Char) : Prop :=
  member.1 = member'.1 ∧ ∀ field ∈ shape.fields, field.name = member.1 → Alike field member.2 member'.2

/-- **A field makes the same of texts that are alike.** -/
theorem Alike.outcome_eq (h : Alike field form form') : outcome field.read form = outcome field.read form' := by
  cases h with
  | same => rfl
  | listed hinner hitems hlength => exact (outcome_named hinner.lawful hinner.steady hitems hlength).symm
  | named hinner hitems hlength => exact outcome_named hinner.lawful hinner.steady hitems hlength

/-- Both are values if one of them is. -/
theorem Alike.wellformed (h : Alike field form form') (hform : ∃ parts, Wellformed form (.value parts)) :
    ∃ parts, Wellformed form' (.value parts) := by
  cases h with
  | same => exact hform
  | @listed _ inner _ _ _ _ _ hitems _ => exact ⟨_, wellformed_writeObject (inner.wellformed_named hitems)⟩
  | named _ hitems _ => exact ⟨_, wellformed_writeList hitems⟩

theorem AlikeRow.values (h : AlikeRow fields items items') (hitems : Values items) : Values items' := by
  induction h with
  | nil => exact hitems
  | cons head _ ih =>
    obtain ⟨hform, hitems⟩ := List.forall_mem_cons.mp hitems
    exact List.forall_mem_cons.mpr ⟨head.wellformed hform, ih hitems⟩

theorem AlikeRow.length_le (h : AlikeRow fields items items') : items'.length ≤ fields.length := by
  induction h with
  | nil => exact Nat.zero_le _
  | cons _ _ ih => exact Nat.succ_le_succ ih

/-- **Rows that are alike are filled alike.** -/
theorem AlikeRow.fillRow_eq (h : AlikeRow fields items items') :
    fillRow fields record items = fillRow fields record items' := by
  induction h generalizing record with
  | nil => rw [fillRow_nil]
  | cons head _ ih =>
    rw [fillRow, fillRow, head.outcome_eq]
    congr 1
    funext x
    exact ih

/-- Texts are alike to themselves. -/
theorem AlikeRow.refl (hlength : items.length ≤ fields.length) : AlikeRow fields items items := by
  induction items generalizing fields with
  | nil => exact .nil
  | cons form items ih =>
    cases fields with
    | nil => exact absurd hlength (Nat.not_succ_le_zero _)
    | cons field fields => exact .cons .same (ih (Nat.le_of_succ_le_succ hlength))

/-! ## 2. Whole records -/

/-- A list of values as a text. -/
def listText (items : List (List Char)) : String :=
  String.ofList (writeList items)

/-- The object of the values, under the names of the first fields, as a text. -/
def objectText {σ : Type} (shape : Shape σ) (items : List (List Char)) : String :=
  String.ofList (writeObject (shape.named items))

theorem decode_listText (h : Recorded shape) (hitems : Values items) :
    decode shape.read (listText items) = .ok v ↔ fillRow shape.fields shape.blank items = .ok v := by
  have hlist := wellformed_writeList hitems
  rw [listText, (steady_shape h.steady).decode_ofList_eq_ok_iff hlist, (settles_list h.steady hlist).outcome_eq]

theorem decode_objectText (h : Recorded shape) (hitems : Values items)
    (hlength : items.length ≤ shape.fields.length) :
    decode shape.read (objectText shape items) = .ok v ↔ fillRow shape.fields shape.blank items = .ok v := by
  have hobject := wellformed_writeObject (shape.wellformed_named hitems)
  rw [objectText, (steady_shape h.steady).decode_ofList_eq_ok_iff hobject,
    outcome_named h.lawful h.steady hitems hlength,
    (settles_list h.steady (wellformed_writeList hitems)).outcome_eq]

/-- **Both forms decode to the same records**, and so do rows that are alike, in either form. -/
theorem decode_alikeRow (h : Recorded shape) (hitems : Values items) (hrow : AlikeRow shape.fields items items') :
    (decode shape.read (listText items) = .ok v ↔ decode shape.read (listText items') = .ok v) ∧
    (decode shape.read (listText items) = .ok v ↔ decode shape.read (objectText shape items') = .ok v) := by
  have hitems' : Values items' := hrow.values hitems
  rw [decode_listText h hitems, decode_listText h hitems', decode_objectText h hitems' hrow.length_le,
    hrow.fillRow_eq]
  exact ⟨Iff.rfl, Iff.rfl⟩

/-- A list with more items than fields is no record. -/
theorem decode_listText_long (h : Recorded shape) (hitems : Values items)
    (hlong : shape.fields.length < items.length) : ∃ error, decode shape.read (listText items) = .error error := by
  obtain ⟨cause, hcause⟩ := outcome_long h.steady hitems hlong
  have htext : (listText items).toList = [] ++ (writeList items ++ []) := by simp [listText]
  obtain ⟨error, herror, -⟩ :=
    (steady_shape h.steady).decode_error (wellformed_writeList hitems) htext blank_nil blank_nil hcause
  exact ⟨error, herror⟩

/-! ## 3. Records inside of records -/

section

variable {τ : Type} {inner : Shape τ} {name : String} {get : σ → τ} {set : τ → σ → σ} {row : List (List Char)}
  {payload : String} {members : List (String × List Char)}

/-- An object is no record if one of its members is a list that is too long for its field, -/
theorem decode_long_member (h : Recorded shape) (hinner : Styled inner)
    (hfield : inner.toField name get set ∈ shape.fields) (hitems : Values items)
    (hlong : inner.fields.length < items.length) (hobject : ObjectOf payload.toList members)
    (hmem : (name, writeList items) ∈ members) : ∃ error, decode shape.read payload = .error error := by
  obtain ⟨error, herror⟩ := decode_listText_long (.styled hinner) hitems hlong
  refine decode_object_error h.lawful h.steady hobject fun v hdescribed => ?_
  have hgiven : decode inner.read (listText items) = .ok (get v) :=
    hdescribed.given (inner.toField name get set) hfield _ hmem
  rw [herror] at hgiven
  cases hgiven

/-- and so is a list with such an item. -/
theorem decode_long_item (h : Recorded shape) (hinner : Styled inner) (hitems : Values items)
    (hlong : inner.fields.length < items.length) (hrow : Values row)
    (hmem : (inner.toField name get set, writeList items) ∈ shape.fields.zip row) :
    ∃ error, decode shape.read (listText row) = .error error := by
  obtain ⟨_, hcause⟩ := outcome_long hinner.steady hitems hlong
  obtain ⟨cause, hfill⟩ : ∃ cause, fillRow shape.fields shape.blank row = .error cause := fillRow_error hmem hcause
  cases hdecode : decode shape.read (listText row) with
  | error error => exact ⟨error, rfl⟩
  | ok v =>
    rw [(decode_listText h hrow).mp hdecode] at hfill
    cases hfill

end

/-- **The list and the object of a record agree.** A list of values for its first fields decodes to a record iff
    the object of these values does, and a list that is too long never does. The same is so of the styles inside:
    whichever of the two forms each of them has makes no difference to the record around it, in a list, in an
    object, or from one to the other; and there is no such record if one of them is a list that is too long. -/
theorem decode_twoForms (h : Recorded shape) :
    (∀ items, Values items → items.length ≤ shape.fields.length → ∀ v,
      decode shape.read (listText items) = .ok v ↔ decode shape.read (objectText shape items) = .ok v) ∧
    (∀ items, Values items → shape.fields.length < items.length →
      ∃ error, decode shape.read (listText items) = .error error) ∧
    (∀ items items', Values items → AlikeRow shape.fields items items' → ∀ v,
      (decode shape.read (listText items) = .ok v ↔ decode shape.read (listText items') = .ok v) ∧
      (decode shape.read (listText items) = .ok v ↔ decode shape.read (objectText shape items') = .ok v)) ∧
    (∀ members members', List.Forall₂ (AlikeMember shape) members members' →
      ∀ payload payload' : String, ObjectOf payload.toList members → ObjectOf payload'.toList members' → ∀ v,
        decode shape.read payload = .ok v ↔ decode shape.read payload' = .ok v) ∧
    ∀ {τ : Type} (inner : Shape τ) (name : String) (get : σ → τ) (set : τ → σ → σ), Styled inner →
      inner.toField name get set ∈ shape.fields →
        ∀ items, Values items → inner.fields.length < items.length →
          (∀ payload members, ObjectOf (String.toList payload) members → (name, writeList items) ∈ members →
            ∃ error, decode shape.read payload = .error error) ∧
          ∀ row, Values row → (inner.toField name get set, writeList items) ∈ shape.fields.zip row →
            ∃ error, decode shape.read (listText row) = .error error := by
  refine ⟨fun items hitems hlength v => (decode_alikeRow h hitems (.refl hlength)).2,
    fun items => decode_listText_long h, fun items items' hitems hrow v => decode_alikeRow h hitems hrow,
    fun members members' hmembers payload payload' hobject hobject' v => ?_,
    fun inner name get set hinner hfield items hitems hlong =>
      ⟨fun payload members => decode_long_member h hinner hfield hitems hlong,
        fun row => decode_long_item h hinner hitems hlong⟩⟩
  have hsame : List.Forall₂ shape.SameMember members members' := hmembers.imp fun member member' hmember =>
    ⟨hmember.1, fun field hf hname => (hmember.2 field hf hname).outcome_eq⟩
  exact decode_congr h.steady hobject hobject' hsame

end

/-- A theme in a list, with its pane in a list and the style of its first column in an object, and the same theme
    with these two the other way round; and a pane that has six values for its five fields. -/
theorem decode_twoForms_theme :
    let title := writeText "T"
    let pane := [writeText "red"]
    let column := [writeText "8em"]
    let listed := [title, title, writeList pane, writeObject (ColumnStyle.shape.named column)]
    let named := [title, title, writeObject (PaneStyle.shape.named pane), writeList column]
    Recorded Theme.shape ∧ Values listed ∧ AlikeRow Theme.shape.fields listed named ∧
    decode Theme.shape.read (listText listed) = .ok { Theme.standard with
      title := "T", separator := "T", pane := { PaneStyle.standard with background := "red" },
      kind := ⟨some "8em", none⟩ } ∧
    decode Theme.shape.read (objectText Theme.shape named) = .ok { Theme.standard with
      title := "T", separator := "T", pane := { PaneStyle.standard with background := "red" },
      kind := ⟨some "8em", none⟩ } ∧
    ∃ error, decode PaneStyle.shape.read (listText (List.replicate 6 title)) = .error error := by
  intro title pane column listed named
  have htext : ∀ s, ∃ parts, Wellformed (writeText s) (.value parts) := fun s =>
    ⟨_, (quoted_writeText s).wellformed⟩
  have hpane : Values pane := fun item hmem => List.mem_singleton.mp hmem ▸ htext _
  have hcolumn : Values column := fun item hmem => List.mem_singleton.mp hmem ▸ htext _
  have hlisted : Values listed := by
    simp only [listed, Values, List.forall_mem_cons]
    exact ⟨htext _, htext _, ⟨_, wellformed_writeList hpane⟩,
      ⟨_, wellformed_writeObject (ColumnStyle.shape.wellformed_named hcolumn)⟩,
      fun _ hmem => absurd hmem List.not_mem_nil⟩
  have hrow : AlikeRow Theme.shape.fields listed named :=
    .cons .same (.cons .same (.cons (.listed .pane hpane (by decide))
      (.cons (.named .column hcolumn (by decide)) .nil)))
  have hdecode : decode Theme.shape.read (listText listed) = .ok { Theme.standard with
      title := "T", separator := "T", pane := { PaneStyle.standard with background := "red" },
      kind := ⟨some "8em", none⟩ } := by
    rw [decode, listText, String.toList_ofList]
    rfl
  obtain ⟨-, -, halike, -⟩ := decode_twoForms (.styled .theme)
  obtain ⟨-, hlong, -⟩ := decode_twoForms (.styled .pane)
  refine ⟨.styled .theme, hlisted, hrow, hdecode, (halike _ _ hlisted hrow _).2.mp hdecode, ?_⟩
  exact hlong _ (fun item hmem => List.eq_of_mem_replicate hmem ▸ htext _) (by decide)

end LinkPane
