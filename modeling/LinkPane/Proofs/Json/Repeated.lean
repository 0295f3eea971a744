import LinkPane.Proofs.Json.FirstFault
import Mathlib.Data.List.Induction

/-!
# Members that are repeated

Where all values of an object are in order, a record is refused at the first known member whose name was given
before, and at nothing else:

* `Shape.Repeats` -- the first known member that has the name of one before it; `exists_repeats` -- there is one
  unless the known members are distinct;
* **`sound_of_distinct`** -- nothing is wrong with distinct members that have good values;
* **`decode_repeats`** -- the cause for which an object is refused: the repeated member is its first fault.
-/

namespace LinkPane.Json

section

variable {σ : Type} {shape : Shape σ} {name : String} {members front back : List (String × List Char)}

/-- The name of the first known member that was given before. -/
def Shape.Repeats (shape : Shape σ) (members : List (String × List Char)) (name : String) : Prop :=
  ∃ front form back, members = front ++ (name, form) :: back ∧ ((shape.known front).map Prod.fst).Nodup ∧
    name ∈ (shape.known front).map Prod.fst

theorem Shape.known_append (shape : Shape σ) (front back : List (String × List Char)) :
    shape.known (front ++ back) = shape.known front ++ shape.known back :=
  List.filter_append front back

/-- The name of a known member is that of a field. -/
theorem exists_field_of_mem_known (h : name ∈ (shape.known members).map Prod.fst) :
    ∃ field, shape.field? name = some field := by
  obtain ⟨member, hmember, rfl⟩ := List.mem_map.mp h
  exact Option.isSome_iff_exists.mp (List.mem_filter.mp hmember).2

/-- Where the known members are distinct a field is not given again. -/
theorem ne_of_mem_later {field : Field σ} {form : List Char} (hf : field ∈ shape.fields)
    (hnodup : ((shape.known (front ++ (field.name, form) :: back)).map Prod.fst).Nodup) :
    ∀ member ∈ back, member.1 ≠ field.name := by
  intro member hmem heq
  have hhere : (field.name, form) ∈ shape.known [(field.name, form)] := mem_known_of_mem hf List.mem_cons_self
  have hlater : (field.name, member.2) ∈ shape.known back := mem_known_of_mem hf (heq ▸ hmem)
  rw [← List.singleton_append, Shape.known_append, Shape.known_append, List.map_append, List.map_append] at hnodup
  have hapart := (List.nodup_append.mp (List.nodup_append.mp hnodup).2.1).2.2
  exact hapart _ (List.mem_map_of_mem hhere) _ (List.mem_map_of_mem hlater) rfl

/-- The known members are distinct, or there is a first one that was given before. -/
theorem exists_repeats (h : ¬ ((shape.known members).map Prod.fst).Nodup) : ∃ name, shape.Repeats members name := by
  induction members using List.reverseRecOn with
  | nil => exact absurd List.nodup_nil h
  | append_singleton front member ih =>
    by_cases hfront : ((shape.known front).map Prod.fst).Nodup
    · -- no member is repeated before the last one
      obtain ⟨name, form⟩ := member
      rw [Shape.known_append] at h
      cases hfield : shape.field? name with
      | none =>
        rw [Shape.known_cons_of_none hfield] at h
        exact absurd (by simpa [Shape.known] using hfront) h
      | some field =>
        rw [Shape.known_cons_of_some hfield] at h
        refine ⟨name, front, form, [], rfl, hfront, ?_⟩
        by_contra hnew
        refine h ?_
        rw [List.map_append, List.nodup_append]
        refine ⟨hfront, by simp [Shape.known], fun other hother last hlast heq => hnew ?_⟩
        obtain rfl : last = name := List.mem_singleton.mp hlast
        exact heq ▸ hother
    · obtain ⟨name, front, form, back, rfl, hrest⟩ := ih hfront
      exact ⟨name, front, form, back ++ [member], by simp, hrest⟩

/-- **Nothing is wrong with distinct members** whose values are in order. -/
theorem sound_of_distinct (hsteady : ∀ field ∈ shape.fields, Steady field.read)
    (hvalues : ∀ member ∈ members, ∃ parts, Wellformed member.2 (.value parts))
    (hread : ∀ field ∈ shape.fields, ∀ form, (field.name, form) ∈ members → ∃ x, outcome field.read form = .ok x)
    (hnodup : ((shape.known members).map Prod.fst).Nodup) : Sound shape members := by
  rintro before other after rfl cause hfault
  have hother : other ∈ before ++ other :: after := List.mem_append_right before List.mem_cons_self
  cases hfault with
  | @repeated field _ form hf hname given =>
    subst hname
    obtain ⟨⟨name, earlier⟩, hmem, rfl⟩ := List.mem_map.mp given
    obtain ⟨front, back, rfl⟩ := List.append_of_mem hmem
    rw [List.append_assoc, List.cons_append] at hnodup
    exact ne_of_mem_later hf hnodup (field.name, form) (List.mem_append_right back List.mem_cons_self) rfl
  | @unreadable field _ form alone hf hname new hdecode =>
    subst hname
    obtain ⟨parts, hform⟩ := hvalues _ hother
    obtain ⟨x, hx⟩ := hread field hf form hother
    rw [((hsteady field hf).decode_ofList_eq_ok_iff hform).mpr hx] at hdecode
    cases hdecode

/-- **An object is refused at the first known member that was given before**, where the values are in order. -/
theorem decode_repeats (hl : shape.Lawful) (hsteady : ∀ field ∈ shape.fields, Steady field.read)
    {payload : String} (h : ObjectOf payload.toList members)
    (hread : ∀ field ∈ shape.fields, ∀ form, (field.name, form) ∈ members → ∃ x, outcome field.read form = .ok x)
    (hrepeats : shape.Repeats members name) :
    ∃ error, decode shape.read payload = .error error ∧ error.cause = .duplicateField name := by
  have hvalues := h.wellformed
  obtain ⟨front, form, back, rfl, hnodup, hmem⟩ := hrepeats
  have hsound : Sound shape front := sound_of_distinct hsteady
    (fun member hfront => hvalues member (List.mem_append_left _ hfront))
    (fun field hf form hfront => hread field hf form (List.mem_append_left _ hfront)) hnodup
  have hfault : Faulty shape front (name, form) (.duplicateField name) := by
    obtain ⟨field, hfield⟩ := exists_field_of_mem_known hmem
    obtain ⟨hf, hname⟩ := Shape.field?_eq_some hfield
    obtain ⟨member, hknown, rfl⟩ := List.mem_map.mp hmem
    exact .repeated hf hname (List.mem_map_of_mem (mem_of_mem_known hknown))
  have hopens : OpensObject payload.toList (front ++ [(name, form)]) := by
    rw [← List.singleton_append, ← List.append_assoc] at h
    exact h.opens (by simp)
  exact decode_of_firstFault hl hsteady hopens hsound hfault

end

end LinkPane.Json
