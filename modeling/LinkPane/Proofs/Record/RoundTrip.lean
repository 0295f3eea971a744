import LinkPane.Proofs.Json.Restoring
import LinkPane.Proofs.Payload.Direct
import LinkPane.Proofs.Theme.Members

/-!
# Records that are written and read

Links, styles and themes are read as they were written, with any characters in their texts and any of their
optional fields missing:

* `Recorded` -- the record types; `Recorded.lawful`, `Recorded.steady`;
* `Recorded.restores` -- every field is read as it was written, since an alignment is written by its name and no
  value that may be missing is written like `null`;
* `encode`, `recode` -- a record as a text; a text that is read and written anew;
* `Sheet` -- what of a record goes into a style sheet;
* **`decode_encode`** -- every record is read as it was written, and a text that is written anew once does not
  change any more.
-/

namespace LinkPane

open Json

/-! ## 1. Record types -/

/-- The record types that are read and written. -/
inductive Recorded : {σ : Type} → Shape σ → Prop
  | link : Recorded Link.shape
  | styled {σ : Type} {shape : Shape σ} (h : Styled shape) : Recorded shape

section

variable {σ : Type} {shape : Shape σ}

theorem Recorded.lawful (h : Recorded shape) : shape.Lawful := by
  cases h with
  | link => exact Link.lawful
  | styled h => exact h.lawful

theorem Recorded.steady (h : Recorded shape) : ∀ field ∈ shape.fields, Steady field.read := by
  cases h with
  | link => exact Link.steady
  | styled h => exact h.steady

end

/-! ## 2. Fields -/

/-- A text that is written is taken for what it is. -/
theorem restores_readLeniently : Restores readLeniently writeText where
  wellformed s := ⟨_, (quoted_writeText s).wellformed⟩
  settles s := by
    have hread : outcome readLeniently (writeText s) = .ok s :=
      outcome_readLeniently (form_writeText s) (Nat.le_refl _)
    exact hread ▸ steady_readLeniently _ _ (quoted_writeText s).wellformed

theorem Align.restores : Restores Align.read Align.write :=
  restores_readVariant fun align => by cases align <;> rfl

theorem ColumnStyle.restores : ∀ field ∈ ColumnStyle.shape.fields, Restores field.read field.write := by
  have hquote : ∀ (s : String) (more : List Char), writeText s ≠ 'n' :: more := fun s more heq =>
    absurd (List.cons.inj heq).1 (by decide)
  simp only [ColumnStyle.shape, List.forall_mem_cons]
  exact ⟨restores_readOption restores_readText hquote,
    restores_readOption Align.restores fun align => hquote align.name, fun _ h => absurd h List.not_mem_nil⟩

theorem PaneStyle.restores : ∀ field ∈ PaneStyle.shape.fields, Restores field.read field.write := by
  simp only [PaneStyle.shape, List.forall_mem_cons]
  exact ⟨restores_readText, restores_readText, restores_readText, restores_readText, restores_readText,
    fun _ h => absurd h List.not_mem_nil⟩

theorem Theme.restores : ∀ field ∈ Theme.shape.fields, Restores field.read field.write := by
  have hpane := restores_shape PaneStyle.lawful PaneStyle.steady PaneStyle.restores
  have hcolumn := restores_shape ColumnStyle.lawful ColumnStyle.steady ColumnStyle.restores
  simp only [Theme.shape, List.forall_mem_cons]
  exact ⟨restores_readText, restores_readText, hpane, hcolumn, hcolumn, hcolumn, hcolumn,
    fun _ h => absurd h List.not_mem_nil⟩

theorem Link.restores : ∀ field ∈ Link.shape.fields, Restores field.read field.write := by
  intro field hf
  obtain ⟨part, -, rfl⟩ := List.mem_map.mp hf
  exact restores_readLeniently

theorem Recorded.restores {σ : Type} {shape : Shape σ} (h : Recorded shape) :
    Restores shape.read shape.write := by
  refine restores_shape h.lawful h.steady ?_
  cases h with
  | link => exact Link.restores
  | styled h =>
    cases h with
    | column => exact ColumnStyle.restores
    | pane => exact PaneStyle.restores
    | theme => exact Theme.restores

/-! ## 3. Texts -/

/-- A record as a text. -/
def encode {σ : Type} (shape : Shape σ) (record : σ) : String :=
  String.ofList (shape.write record)

/-- A text that is read and written anew. -/
def recode {σ : Type} (shape : Shape σ) (text : String) : Except Error String :=
  (decode shape.read text).map (encode shape)

/-- What of a record goes into style sheets. -/
inductive Sheet : {σ : Type} → Shape σ → (σ → List String) → Prop
  | link : Sheet Link.shape fun _ => []
  | column : Sheet ColumnStyle.shape fun style => [style.css]
  | pane : Sheet PaneStyle.shape fun style => [style.css]
  | theme : Sheet Theme.shape fun theme =>
      theme.pane.css :: [theme.kind, theme.source, theme.separatorColumn, theme.target].map ColumnStyle.css

theorem Sheet.recorded {σ : Type} {shape : Shape σ} {css : σ → List String} (h : Sheet shape css) :
    Recorded shape := by
  cases h with
  | link => exact .link
  | column => exact .styled .column
  | pane => exact .styled .pane
  | theme => exact .styled .theme

/-- **Every record is read as it was written.** So a text that can be read may be written anew: what is written
    then is the same record with the same style sheet, and writing it anew once more changes nothing. -/
theorem decode_encode {σ : Type} {shape : Shape σ} {css : σ → List String} (h : Sheet shape css) :
    (∀ record, decode shape.read (encode shape record) = .ok record) ∧
    ∀ text record, decode shape.read text = .ok record →
      ∃ json, recode shape text = .ok json ∧ decode shape.read json = .ok record ∧
        recode shape json = .ok json ∧ (decode shape.read json).map css = (decode shape.read text).map css := by
  have hrestores : ∀ record, decode shape.read (encode shape record) = .ok record :=
    h.recorded.restores.decode_eq
  refine ⟨hrestores, fun text record hdecode => ⟨encode shape record, ?_, hrestores record, ?_, ?_⟩⟩
  · rw [recode, hdecode]
    rfl
  · rw [recode, hrestores record]
    rfl
  · rw [hrestores record, hdecode]

/-- A width with a quote and a line break in it, and no alignment; and an alignment in an object, which is written
    anew as a text. -/
theorem decode_encode_column :
    Sheet ColumnStyle.shape (fun style => [style.css]) ∧
    decode ColumnStyle.shape.read (encode ColumnStyle.shape ⟨some "1\"\n", none⟩) = .ok ⟨some "1\"\n", none⟩ ∧
    decode ColumnStyle.shape.read "\x7b\"align\":\x7b\"right\":null\x7d\x7d" = .ok ⟨none, some .right⟩ ∧
    ∃ json, recode ColumnStyle.shape "\x7b\"align\":\x7b\"right\":null\x7d\x7d" = .ok json ∧
      decode ColumnStyle.shape.read json = .ok ⟨none, some .right⟩ ∧ recode ColumnStyle.shape json = .ok json := by
  have hdecode : decode ColumnStyle.shape.read "\x7b\"align\":\x7b\"right\":null\x7d\x7d" =
      .ok ⟨none, some .right⟩ := by
    rw [decode, String.toList_ofList]
    rfl
  obtain ⟨hrestores, hanew⟩ := decode_encode Sheet.column
  obtain ⟨json, hrecode, hsame, hstill, -⟩ := hanew _ _ hdecode
  exact ⟨.column, hrestores _, hdecode, json, hrecode, hsame, hstill⟩

end LinkPane
