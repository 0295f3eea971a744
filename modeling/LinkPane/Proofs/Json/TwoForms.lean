import LinkPane.Proofs.Json.Described

/-!
# The two forms of a record

A record with values for its first fields may be given in a list or in an object. The one is read by place, the
other by name:

* `Values` -- items that are values;
* `Shape.named` -- the members that they are, by the names of the fields in their places;
* `wellformed_writeList`, `Shape.wellformed_named` -- both forms are values;
* **`foldlM_put_named`** -- putting the members one by one is filling the row of items, since every field is the
  one of its name and no name comes twice;
* **`outcome_named`** -- so both forms have the same outcome, the cause of a fault included;
* **`outcome_long`** -- a list of more items than fields is a fault;
* **`decode_congr`** -- an object is what its members make it: where each of them has the same outcome as
  another, the objects decode to the same record.
-/

namespace LinkPane.Json

section

variable {σ : Type} {shape : Shape σ} {fields : List (Field σ)} {record : σ} {seen : List String}
  {items : List (List Char)} {members members' : List (String × List Char)}

/-! ## 1. Lists and objects -/

/-- Items as members, by the names of the fields in their places. -/
def Shape.named (shape : Shape σ) (items : List (List Char)) : List (String × List Char) :=
  (shape.fields.map Field.name).zip items

/-- Each of the texts is a value. -/
def Values (items : List (List Char)) : Prop :=
  ∀ item ∈ items, ∃ parts, Wellformed item (.value parts)

theorem wellformed_items (item : List Char) (h : Values (item :: items)) :
    Wellformed ([','].intercalate (item :: items)) (.items (item :: items)) := by
  induction items generalizing item with
  | nil =>
    obtain ⟨parts, hform⟩ := h item List.mem_cons_self
    have := Wellformed.lastItem blank_nil hform blank_nil
    simpa using this
  | cons next items ih =>
    obtain ⟨⟨parts, hform⟩, hrest⟩ := List.forall_mem_cons.mp h
    have := Wellformed.moreItems blank_nil hform blank_nil (ih next hrest)
    simpa [List.intercalate_cons_cons] using this

/-- **Written items between brackets are a list of theirs.** -/
theorem wellformed_writeList (h : Values items) : Wellformed (writeList items) (.value (.list items)) := by
  cases items with
  | nil => exact .emptyList blank_nil
  | cons item items => exact .list (wellformed_items item h)

theorem Shape.wellformed_named (shape : Shape σ) (h : Values items) :
    ∀ member ∈ shape.named items, ∃ parts, Wellformed member.2 (.value parts) := fun _ hmem =>
  h _ (List.of_mem_zip hmem).2

/-! ## 2. By place and by name -/

/-- A field is found by its name. -/
theorem Shape.Lawful.field?_name (hl : shape.Lawful) {field : Field σ} (hf : field ∈ shape.fields) :
    shape.field? field.name = some field := by
  cases h : shape.field? field.name with
  | none => exact absurd rfl (Shape.field?_eq_none h hf)
  | some other =>
    obtain ⟨ho, hname⟩ := Shape.field?_eq_some h
    rw [hl.unique ho hf hname]

/-- **Members in the places of their fields are put as the items of a row**, by induction on the items. -/
theorem foldlM_put_named (hl : shape.Lawful) (hfields : ∀ field ∈ fields, field ∈ shape.fields)
    (hnodup : (fields.map Field.name).Nodup) (hfresh : ∀ field ∈ fields, field.name ∉ seen)
    (hlength : items.length ≤ fields.length) :
    (((fields.map Field.name).zip items).foldlM (fun state member => shape.put member.1 member.2 state)
      (record, seen)).map Prod.fst = fillRow fields record items := by
  induction items generalizing fields record seen with
  | nil =>
    rw [List.zip_nil_right, fillRow_nil]
    rfl
  | cons form items ih =>
    cases fields with
    | nil => exact absurd hlength (Nat.not_succ_le_zero _)
    | cons field fields =>
      obtain ⟨hf, hfields⟩ := List.forall_mem_cons.mp hfields
      obtain ⟨hnew, hfresh⟩ := List.forall_mem_cons.mp hfresh
      obtain ⟨hother, hnodup⟩ := List.nodup_cons.mp hnodup
      have hstill : ∀ other ∈ fields, other.name ∉ field.name :: seen := fun other ho hin => by
        rcases List.mem_cons.mp hin with hname | hin
        · exact hother (List.mem_map.mpr ⟨other, ho, hname⟩)
        · exact hfresh other ho hin
      have hput : shape.put field.name form (record, seen) =
          (outcome field.read form).map fun x => (field.set x record, field.name :: seen) := by
        rw [Shape.put, hl.field?_name hf]
        exact if_neg hnew
      rw [List.map_cons, List.zip_cons_cons, List.foldlM_cons, hput, fillRow, map_bind, bind_map]
      congr 1
      funext x
      exact ih hfields hnodup hstill (Nat.le_of_succ_le_succ hlength)

/-- What an object makes of a record, by its members. -/
theorem outcome_of_names (hsteady : ∀ field ∈ shape.fields, Steady field.read) {form : List Char}
    {written : List (List Char × List Char)} (h : Wellformed form (.value (.object written)))
    (hnames : List.Forall₂ (fun (key, value) (name, value') => Names key name ∧ value = value') written members) :
    outcome shape.read form =
      (members.foldlM (fun state member => shape.put member.1 member.2 state) (shape.blank, [])).map Prod.fst := by
  rw [(settles_object hsteady h).outcome_eq, Shape.gather, foldlM_putMember h.quoted_of_mem_object hnames]

/-- **Both forms have the same outcome**, as long as there are no more items than fields. -/
theorem outcome_named (hl : shape.Lawful) (hsteady : ∀ field ∈ shape.fields, Steady field.read)
    (hitems : Values items) (hlength : items.length ≤ shape.fields.length) :
    outcome shape.read (writeObject (shape.named items)) = outcome shape.read (writeList items) := by
  have hobject := wellformed_writeObject (shape.wellformed_named hitems)
  rw [outcome_of_names hsteady hobject (names_writeObject _),
    (settles_list hsteady (wellformed_writeList hitems)).outcome_eq]
  exact foldlM_put_named hl (fun _ => id) hl.nodup_names (fun _ _ => List.not_mem_nil) hlength

/-- A row of more items than fields is a fault: that of an item that has a field, or that there is one too many. -/
theorem fillRow_long (hlength : fields.length < items.length) :
    ∃ cause, fillRow fields record items = .error cause := by
  induction items generalizing fields record with
  | nil => exact absurd hlength (Nat.not_lt_zero _)
  | cons form items ih =>
    cases fields with
    | nil => exact ⟨_, rfl⟩
    | cons field fields =>
      rw [fillRow]
      cases outcome field.read form with
      | error cause => exact ⟨cause, rfl⟩
      | ok x => exact ih (Nat.lt_of_succ_lt_succ hlength)

/-- **A list of more items than fields is a fault.** -/
theorem outcome_long (hsteady : ∀ field ∈ shape.fields, Steady field.read) (hitems : Values items)
    (hlength : shape.fields.length < items.length) :
    ∃ cause, outcome shape.read (writeList items) = .error cause := by
  rw [(settles_list hsteady (wellformed_writeList hitems)).outcome_eq]
  exact fillRow_long hlength

/-- A row is a fault if one of its items is a fault in its place. -/
theorem fillRow_error {field : Field σ} {form : List Char} {cause : Cause} (hmem : (field, form) ∈ fields.zip items)
    (herror : outcome field.read form = .error cause) : ∃ cause, fillRow fields record items = .error cause := by
  induction items generalizing fields record with
  | nil => simp at hmem
  | cons first items ih =>
    cases fields with
    | nil => simp at hmem
    | cons other fields =>
      rw [fillRow]
      rcases List.mem_cons.mp hmem with heq | hmem
      · obtain ⟨rfl, rfl⟩ := Prod.mk.inj heq
        exact ⟨cause, by rw [herror]; rfl⟩
      · cases outcome other.read first with
        | error cause => exact ⟨cause, rfl⟩
        | ok x => exact ih hmem

/-! ## 3. Members of the same outcome -/

/-- Two members of one name, of which a field makes the same. -/
def Shape.SameMember (shape : Shape σ) (member member' : String × List Char) : Prop :=
  member.1 = member'.1 ∧ ∀ field ∈ shape.fields, field.name = member.1 →
    outcome field.read member.2 = outcome field.read member'.2

theorem foldlM_put_congr (h : List.Forall₂ shape.SameMember members members') (state : σ × List String) :
    members.foldlM (fun state member => shape.put member.1 member.2 state) state =
      members'.foldlM (fun state member => shape.put member.1 member.2 state) state := by
  induction h generalizing state with
  | nil => rfl
  | @cons member member' members members' hsame _ ih =>
    have hput : shape.put member.1 member.2 state = shape.put member'.1 member'.2 state := by
      rw [Shape.put, Shape.put, ← hsame.1]
      cases hfield : shape.field? member.1 with
      | none => rfl
      | some field =>
        obtain ⟨hf, hname⟩ := Shape.field?_eq_some hfield
        dsimp only
        rw [hsame.2 field hf hname]
    rw [List.foldlM_cons, List.foldlM_cons, hput]
    congr 1
    funext state
    exact ih state

/-- **Objects of the same members decode to the same record.** -/
theorem decode_congr (hsteady : ∀ field ∈ shape.fields, Steady field.read) {payload payload' : String}
    (h : ObjectOf payload.toList members) (h' : ObjectOf payload'.toList members')
    (hsame : List.Forall₂ shape.SameMember members members') {v : σ} :
    decode shape.read payload = .ok v ↔ decode shape.read payload' = .ok v := by
  obtain ⟨a, form, b, written, hpayload, ha, hb, hform, hnames⟩ := h
  obtain ⟨a', form', b', written', hpayload', ha', hb', hform', hnames'⟩ := h'
  have hread := steady_shape hsteady
  rw [hread.decode_eq_ok_iff hform hpayload ha hb, hread.decode_eq_ok_iff hform' hpayload' ha' hb',
    outcome_of_names hsteady hform hnames, outcome_of_names hsteady hform' hnames', foldlM_put_congr hsame]

end

end LinkPane.Json
