import LinkPane.Proofs.Json.Described
import LinkPane.Proofs.Json.Kinds
import LinkPane.Theme

/-!
# Themes member by member

* `Styled` -- the record types of a theme;
* `Styled.lawful`, `Styled.steady` -- their fields do not disturb each other, and each is read by a steady
  reader; `Styled.takes` -- of values of some kinds only;
* **`decode_styled`** -- an object is a theme, or a style, iff its known members are distinct, each of them
  decodes on its own, and the fields that are not given are those of the blank record of the type that is asked
  for. So a style inside a theme completes itself from its own type, whatever the theme would have in its place.
-/

namespace LinkPane

open Json

/-! ## 1. Record types -/

/-- The record types of a theme. -/
inductive Styled : {σ : Type} → Shape σ → Prop
  | column : Styled ColumnStyle.shape
  | pane : Styled PaneStyle.shape
  | theme : Styled Theme.shape

theorem ColumnStyle.lawful : ColumnStyle.shape.Lawful := by
  refine ⟨?_, ?_, ?_⟩
  · simp [ColumnStyle.shape, optionalField]
  · simp [ColumnStyle.shape, optionalField, Field.Apart]
  · intro style style' h
    simp only [ColumnStyle.shape, List.forall_mem_cons] at h
    obtain ⟨hwidth, halign, -⟩ := h
    cases style
    cases style'
    exact congr (congrArg ColumnStyle.mk hwidth) halign

theorem PaneStyle.lawful : PaneStyle.shape.Lawful := by
  refine ⟨?_, ?_, ?_⟩
  · simp [PaneStyle.shape, Field.text]
  · simp [PaneStyle.shape, Field.text, Field.Apart]
  · intro style style' h
    simp only [PaneStyle.shape, List.forall_mem_cons] at h
    obtain ⟨hbackground, hborder, hradius, hmargin, hpadding, -⟩ := h
    cases style
    cases style'
    simp_all [Field.text]

theorem Theme.lawful : Theme.shape.Lawful := by
  refine ⟨?_, ?_, ?_⟩
  · simp [Theme.shape, Field.text, Shape.toField]
  · simp [Theme.shape, Field.text, Shape.toField, Field.Apart]
  · intro theme theme' h
    simp only [Theme.shape, List.forall_mem_cons] at h
    obtain ⟨htitle, hseparator, hpane, hkind, hsource, hcolumn, htarget, -⟩ := h
    cases theme
    cases theme'
    simp_all [Field.text, Shape.toField]

theorem ColumnStyle.steady : ∀ field ∈ ColumnStyle.shape.fields, Steady field.read := by
  simp only [ColumnStyle.shape, List.forall_mem_cons]
  exact ⟨steady_readOption steady_readText, steady_readOption (steady_readVariant Align.known),
    fun _ h => absurd h List.not_mem_nil⟩

theorem PaneStyle.steady : ∀ field ∈ PaneStyle.shape.fields, Steady field.read := by
  simp only [PaneStyle.shape, List.forall_mem_cons]
  exact ⟨steady_readText, steady_readText, steady_readText, steady_readText, steady_readText,
    fun _ h => absurd h List.not_mem_nil⟩

theorem Theme.steady : ∀ field ∈ Theme.shape.fields, Steady field.read := by
  have hcolumn : Steady ColumnStyle.shape.read := steady_shape ColumnStyle.steady
  simp only [Theme.shape, List.forall_mem_cons]
  exact ⟨steady_readText, steady_readText, steady_shape PaneStyle.steady, hcolumn, hcolumn, hcolumn, hcolumn,
    fun _ h => absurd h List.not_mem_nil⟩

section

variable {σ : Type} {shape : Shape σ}

theorem Styled.lawful (h : Styled shape) : shape.Lawful := by
  cases h with
  | column => exact ColumnStyle.lawful
  | pane => exact PaneStyle.lawful
  | theme => exact Theme.lawful

theorem Styled.steady (h : Styled shape) : ∀ field ∈ shape.fields, Steady field.read := by
  cases h with
  | column => exact ColumnStyle.steady
  | pane => exact PaneStyle.steady
  | theme => exact Theme.steady

/-- Every field takes values of some kinds only. -/
theorem Styled.takes (h : Styled shape) : ∀ field ∈ shape.fields, ∃ kinds, Takes field.read kinds := by
  cases h with
  | column =>
    simp only [ColumnStyle.shape, List.forall_mem_cons]
    exact ⟨⟨_, .option .text⟩, ⟨_, .option .variant⟩, fun _ hmem => absurd hmem List.not_mem_nil⟩
  | pane =>
    simp only [PaneStyle.shape, List.forall_mem_cons]
    exact ⟨⟨_, .text⟩, ⟨_, .text⟩, ⟨_, .text⟩, ⟨_, .text⟩, ⟨_, .text⟩,
      fun _ hmem => absurd hmem List.not_mem_nil⟩
  | theme =>
    simp only [Theme.shape, List.forall_mem_cons]
    exact ⟨⟨_, .text⟩, ⟨_, .text⟩, ⟨_, .record⟩, ⟨_, .record⟩, ⟨_, .record⟩, ⟨_, .record⟩, ⟨_, .record⟩,
      fun _ hmem => absurd hmem List.not_mem_nil⟩

/-! ## 2. Decoding -/

/-- **A theme is decoded member by member.** An object decodes to a record iff it describes that record; the
    order of the members and those that are no fields have no part in it; a member of another kind than its
    field, or one that does not decode on its own, is a fault and no default, and so is a known member that is
    repeated; and a style inside, in an object or in a list, completes itself from the blank style of its own
    type. -/
theorem decode_styled (hshape : Styled shape) {payload : String} {members : List (String × List Char)}
    (h : ObjectOf payload.toList members) :
    (∀ v, decode shape.read payload = .ok v ↔ Described shape members v) ∧
    (∀ payload' members', ObjectOf (String.toList payload') members' →
      (shape.known members).Perm (shape.known members') →
        ∀ v, decode shape.read payload' = .ok v ↔ decode shape.read payload = .ok v) ∧
    (∀ field ∈ shape.fields, ∃ kinds, Takes field.read kinds ∧ ∀ form, (field.name, form) ∈ members →
      (Kind.of form ∉ kinds ∨ ∃ error, decode field.read (String.ofList form) = .error error) →
        ∃ error, decode shape.read payload = .error error) ∧
    (¬ ((shape.known members).map Prod.fst).Nodup → ∃ error, decode shape.read payload = .error error) ∧
    ∀ {τ : Type} (style : Shape τ) (name : String) (get : σ → τ) (set : τ → σ → σ), Styled style →
      style.toField name get set ∈ shape.fields → ∀ form, (name, form) ∈ members →
        ∀ v, decode shape.read payload = .ok v →
          (∀ inner, ObjectOf form inner → Described style inner (get v)) ∧
          ∀ items, Wellformed form (.value (.list items)) →
            ∀ field ∈ style.fields.drop items.length, field.get (get v) = field.get style.blank := by
  have hiff : ∀ v, decode shape.read payload = .ok v ↔ Described shape members v := fun v =>
    decode_object_iff hshape.lawful hshape.steady h
  refine ⟨hiff, fun payload' members' h' hperm v => ?_, fun field hf => ?_, fun hrepeated => ?_,
    fun style name get set hstyle hf form hmem v hdecode => ?_⟩
  · rw [decode_object_iff hshape.lawful hshape.steady h', hiff v]
    exact ⟨fun hd => hd.of_perm hperm.symm, fun hd => hd.of_perm hperm⟩
  · obtain ⟨kinds, htakes⟩ := hshape.takes field hf
    refine ⟨kinds, htakes, fun form hmem hbad => ?_⟩
    obtain ⟨parts, hform⟩ := h.wellformed _ hmem
    have herror : ∃ error, decode field.read (String.ofList form) = .error error :=
      hbad.elim (htakes.decode_error hform) id
    refine decode_object_error hshape.lawful hshape.steady h fun v hd => ?_
    obtain ⟨error, herror⟩ := herror
    have hgiven := hd.given field hf form hmem
    rw [herror] at hgiven
    cases hgiven
  · exact decode_object_error hshape.lawful hshape.steady h fun v hd => hrepeated hd.distinct
  · -- the style is what the text of its member decodes to on its own
    have hgiven : decode style.read (String.ofList form) = .ok (get v) :=
      ((hiff v).mp hdecode).given (style.toField name get set) hf form hmem
    constructor
    · intro inner hinner
      have htext : ObjectOf (String.ofList form).toList inner := by rwa [String.toList_ofList]
      exact (decode_object_iff hstyle.lawful hstyle.steady htext).mp hgiven
    · intro items hform
      exact get_of_decode_list hstyle.lawful hstyle.steady hform hgiven

end

/-- A source column that is given, and empty, is blank: it is not the fixed one of the standard theme. -/
theorem decode_styled_source :
    ObjectOf "\x7b\"source\":\x7b\x7d,\"x\":1\x7d".toList [("source", ['{', '}']), ("x", ['1'])] ∧
      decode Theme.shape.read "\x7b\"source\":\x7b\x7d,\"x\":1\x7d" =
        .ok { Theme.standard with source := .blank } := by
  have hsource : Wellformed ['{', '}'] (.value (.object [])) := .emptyObject blank_nil
  have hone : Whole ['1'] := .digits (by simp [Decimals]) (by decide)
  have hx : Wellformed ['1'] (.value .scalar) := .number (.parts .absent hone .absent .absent)
  have hwritten : ObjectOf (writeObject [("source", ['{', '}']), ("x", ['1'])])
      [("source", ['{', '}']), ("x", ['1'])] := by
    refine objectOf_writeObject ?_
    simp only [List.forall_mem_cons]
    exact ⟨⟨_, hsource⟩, ⟨_, hx⟩, fun _ hmem => absurd hmem List.not_mem_nil⟩
  have h : ObjectOf "\x7b\"source\":\x7b\x7d,\"x\":1\x7d".toList
      [("source", ['{', '}']), ("x", ['1'])] := by
    rw [String.toList_ofList]
    exact hwritten
  refine ⟨h, ((decode_styled .theme h).1 _).mpr ⟨?_, ?_, ?_⟩⟩
  · simp [Shape.known, Shape.field?, Theme.shape, Field.text, Shape.toField]
  · have hblank : decode ColumnStyle.shape.read (String.ofList ['{', '}']) = .ok .blank := rfl
    simp only [Theme.shape, List.forall_mem_cons]
    simp [Field.text, Shape.toField, hblank]
  · simp only [Theme.shape, List.forall_mem_cons]
    simp [Field.text, Shape.toField]

end LinkPane
