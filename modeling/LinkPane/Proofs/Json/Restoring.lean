import LinkPane.Proofs.Json.Described

/-!
# What is written is read again

A reader restores what a writer writes if every written form is a value and is read as what was written,
wherever it stands. That is so of records if it is so of their fields:

* `Restores` -- of a reader and a writer;
* `restores_readText`, `restores_readVariant` -- of texts, and of variants by their names;
* **`restores_readOption`** -- of values that may be missing, unless their forms begin like `null`;
* `described_write` -- the members that a record is written with describe that record;
* **`restores_shape`** -- of records.
-/

namespace LinkPane.Json

section

variable {α : Type} {read : Reader α} {write : α → List Char}

/-- Every form that is written is a value, and the reader makes of it what was written. -/
structure Restores (read : Reader α) (write : α → List Char) : Prop where
  wellformed : ∀ x, ∃ parts, Wellformed (write x) (.value parts)
  settles : ∀ x, Settles read (write x) (.ok x)

theorem Restores.decode_eq (h : Restores read write) (x : α) :
    decode read (String.ofList (write x)) = .ok x := by
  have hcause := (h.settles x).decode_ofList_eq
  cases hdecode : decode read (String.ofList (write x)) with
  | ok y =>
    rw [hdecode] at hcause
    rw [Except.ok.inj hcause]
  | error error =>
    rw [hdecode] at hcause
    cases hcause

/-! ## 1. Single values -/

theorem restores_readText : Restores readText writeText where
  wellformed s := ⟨_, (quoted_writeText s).wellformed⟩
  settles s := by
    have hsettles := steady_readText _ _ (quoted_writeText s).wellformed
    rwa [(names_writeText s).outcome_eq (quoted_writeText s)] at hsettles

/-- A variant is written by its name. -/
theorem restores_readVariant {known : List (String × α)} {name : α → String}
    (hname : ∀ x, known.lookup (name x) = some x) :
    Restores (readVariant known) fun x => writeText (name x) where
  wellformed x := ⟨_, (quoted_writeText (name x)).wellformed⟩
  settles x := by
    have hquoted := quoted_writeText (name x)
    have hread : outcome (readName known) (writeText (name x)) = .ok x := by
      rw [(settles_readName known hquoted.wellformed).outcome_eq, (names_writeText _).outcome_eq hquoted]
      simp only [bind, Except.bind, hname]
    exact hread ▸ settles_readVariant_text hquoted

/-- **A value that may be missing** is told from `null` by its first character. -/
theorem restores_readOption (h : Restores read write) (hnull : ∀ x more, write x ≠ 'n' :: more) :
    Restores (readOption read) (writeOption write) where
  wellformed
    | none => ⟨_, .null⟩
    | some x => h.wellformed x
  settles
    | none => settles_readOption_null .null
    | some x => by
      obtain ⟨_, hform⟩ := h.wellformed x
      exact settles_readOption_some hform (hnull x) (h.settles x)

end

/-! ## 2. Records -/

section

variable {σ : Type} {shape : Shape σ}

/-- The members that a record is written with. -/
def Shape.members (shape : Shape σ) (record : σ) : List (String × List Char) :=
  shape.fields.map fun field => (field.name, field.write (field.get record))

/-- They are values. -/
theorem Shape.wellformed_members (h : ∀ field ∈ shape.fields, Restores field.read field.write) (record : σ) :
    ∀ member ∈ shape.members record, ∃ parts, Wellformed member.2 (.value parts) := by
  intro member hmem
  obtain ⟨field, hf, rfl⟩ := List.mem_map.mp hmem
  exact (h field hf).wellformed (field.get record)

/-- **The members that a record is written with describe that record**: no field is missing or repeated, and each
    is read as it was written. -/
theorem described_write (hl : shape.Lawful) (h : ∀ field ∈ shape.fields, Restores field.read field.write)
    (record : σ) : Described shape (shape.members record) record := by
  have hnames : (shape.members record).map Prod.fst = shape.fields.map Field.name := by
    rw [Shape.members, List.map_map]
    rfl
  refine ⟨?_, fun field hf form hmem => ?_, fun field hf hmissing => ?_⟩
  · have hknown : (shape.known (shape.members record)).Sublist (shape.members record) := List.filter_sublist
    exact (hnames ▸ hl.nodup_names).sublist (hknown.map Prod.fst)
  · obtain ⟨other, ho, heq⟩ := List.mem_map.mp hmem
    obtain ⟨hname, rfl⟩ := Prod.mk.inj heq
    obtain rfl := hl.unique ho hf hname
    exact (h other ho).decode_eq (other.get record)
  · exact absurd rfl (hmissing _ (List.mem_map_of_mem hf))

/-- **A record is read as it was written** if its fields are. -/
theorem restores_shape (hl : shape.Lawful) (hsteady : ∀ field ∈ shape.fields, Steady field.read)
    (h : ∀ field ∈ shape.fields, Restores field.read field.write) : Restores shape.read shape.write := by
  have hform : ∀ record, ∃ parts, Wellformed (shape.write record) (.value parts) := fun record =>
    ⟨_, wellformed_writeObject (Shape.wellformed_members h record)⟩
  refine ⟨hform, fun record => ?_⟩
  obtain ⟨parts, hwritten⟩ := hform record
  have hobject : ObjectOf (String.ofList (shape.write record)).toList (shape.members record) := by
    rw [String.toList_ofList]
    exact objectOf_writeObject (Shape.wellformed_members h record)
  have hdecode := (decode_object_iff hl hsteady hobject).mpr (described_write hl h record)
  have hsettles := steady_shape hsteady _ _ hwritten
  rwa [((steady_shape hsteady).decode_ofList_eq_ok_iff hwritten).mp hdecode] at hsettles

end

end LinkPane.Json
