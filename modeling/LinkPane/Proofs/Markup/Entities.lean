import LinkPane.Markup

/-!
# Entities

A text hides the characters that could be taken for markup behind entities. What is written so can be read
back, and has nothing left in it of what was to be hidden:

* `Writes` -- the form of one character, for a list of characters and their entities; `textEntities` are those
  hidden in a text, `entities` those hidden in the value of an attribute;
* **`Writes.unique`** -- a form is that of one character; **`escape_injective`**, **`escapeQuoted_injective`** --
  so a text can be read back;
* `ne_of_mem_escape`, `ne_of_mem_escapeQuoted` -- the characters that are gone;
* `Escaped`, **`Escaped.entity_of_amp`** -- every `&` that is left begins an entity.
-/

namespace LinkPane.Markup

/-! ## 1. Characters and their entities -/

/-- The characters that a text is written without, and the entities in their place, less the `&`. -/
def textEntities : List (Char × List Char) :=
  [('&', ['a', 'm', 'p', ';']), ('<', ['l', 't', ';']), ('>', ['g', 't', ';'])]

/-- The same of the value of an attribute. -/
def entities : List (Char × List Char) :=
  ('"', ['q', 'u', 'o', 't', ';']) :: textEntities

/-- The form of a character: an entity if it is one of those named, and otherwise itself. -/
def Writes (named : List (Char × List Char)) (c : Char) (form : List Char) : Prop :=
  (∃ name, (c, name) ∈ named ∧ form = '&' :: name) ∨ c ∉ named.map Prod.fst ∧ form = [c]

theorem writes_escapeChar (c : Char) : Writes textEntities c (escapeChar c) := by
  unfold escapeChar Writes textEntities
  split
  · rename_i h
    exact .inl ⟨_, by simp [h], rfl⟩
  split
  · rename_i h
    exact .inl ⟨_, by simp [h], rfl⟩
  split
  · rename_i h
    exact .inl ⟨_, by simp [h], rfl⟩
  · rename_i hamp hlt hgt
    exact .inr ⟨by simp [hamp, hlt, hgt], rfl⟩

theorem writes_escapeQuotedChar (c : Char) : Writes entities c (escapeQuotedChar c) := by
  unfold escapeQuotedChar
  split
  · rename_i h
    exact .inl ⟨_, by simp [entities, h], rfl⟩
  · rename_i hquote
    rcases writes_escapeChar c with ⟨name, hname, hform⟩ | ⟨hc, hform⟩
    · exact .inl ⟨name, List.mem_cons_of_mem _ hname, hform⟩
    · refine .inr ⟨?_, hform⟩
      rw [entities, List.map_cons, List.mem_cons, not_or]
      exact ⟨hquote, hc⟩

/-- No entity has a character inside that has one of its own. -/
theorem notMem_entity {c d : Char} {name : List Char} (h : (c, name) ∈ entities) (hd : d ∈ name) :
    d ∉ entities.map Prod.fst := by
  have hall : (entities.all fun entity => entity.2.all fun d => !(entities.map Prod.fst).contains d) = true := by
    decide
  have hname := List.all_eq_true.mp (List.all_eq_true.mp hall _ h) d hd
  rwa [Bool.not_eq_true', ← Bool.not_eq_true, List.contains_iff_mem] at hname

/-- Two entities of which neither goes on behind the other are of one character. -/
theorem entity_unique {c d : Char} {name name' x y : List Char} (h : (c, name) ∈ entities)
    (h' : (d, name') ∈ entities) (heq : name ++ x = name' ++ y) : c = d ∧ x = y := by
  simp only [entities, textEntities, List.mem_cons, List.not_mem_nil, or_false, Prod.mk.injEq] at h h'
  rcases h with ⟨rfl, rfl⟩ | ⟨rfl, rfl⟩ | ⟨rfl, rfl⟩ | ⟨rfl, rfl⟩ <;>
    rcases h' with ⟨rfl, rfl⟩ | ⟨rfl, rfl⟩ | ⟨rfl, rfl⟩ | ⟨rfl, rfl⟩ <;> simp_all

section

variable {named : List (Char × List Char)} {c d : Char} {form form' x y text : List Char}
  {f : Char → List Char}

/-- Of the characters named none but the `&` is left. -/
theorem Writes.eq_amp (hnamed : named ⊆ entities) (h : Writes named c form) (hd : d ∈ form)
    (hkey : d ∈ named.map Prod.fst) : d = '&' := by
  rcases h with ⟨name, hname, rfl⟩ | ⟨hc, rfl⟩
  · rcases List.mem_cons.mp hd with rfl | hd
    · rfl
    · exact absurd (List.map_subset Prod.fst hnamed hkey) (notMem_entity (hnamed hname) hd)
  · exact absurd (List.mem_singleton.mp hd ▸ hkey) hc

/-- **A form is that of one character**, and it is known where it ends. -/
theorem Writes.unique (hnamed : named ⊆ entities) (hamp : '&' ∈ named.map Prod.fst) (h : Writes named c form)
    (h' : Writes named d form') (heq : form ++ x = form' ++ y) : c = d ∧ x = y := by
  rcases h with ⟨name, hname, rfl⟩ | ⟨hc, rfl⟩ <;> rcases h' with ⟨name', hname', rfl⟩ | ⟨hd, rfl⟩
  · exact entity_unique (hnamed hname) (hnamed hname') (List.cons.inj heq).2
  · exact absurd ((List.cons.inj heq).1 ▸ hamp) hd
  · exact absurd ((List.cons.inj heq).1 ▸ hamp) hc
  · exact List.cons.inj heq

/-! ## 2. Whole texts -/

/-- What is written character by character can be read back. -/
theorem flatMap_injective (hnamed : named ⊆ entities) (hamp : '&' ∈ named.map Prod.fst)
    (hf : ∀ c, Writes named c (f c)) (h : x.flatMap f = y.flatMap f) : x = y := by
  have hne : ∀ c rest, [] ≠ f c ++ rest := fun c rest heq => by
    rcases hf c with ⟨name, -, hform⟩ | ⟨-, hform⟩ <;> simp [hform] at heq
  induction x generalizing y with
  | nil =>
    cases y with
    | nil => rfl
    | cons d y => exact absurd h (hne d _)
  | cons c x ih =>
    cases y with
    | nil => exact absurd h.symm (hne c _)
    | cons d y =>
      obtain ⟨rfl, hrest⟩ := Writes.unique hnamed hamp (hf c) (hf d) h
      rw [ih hrest]

theorem escape_injective (h : escape x = escape y) : x = y :=
  flatMap_injective (fun _ => List.mem_cons_of_mem _) (by decide) writes_escapeChar h

theorem escapeQuoted_injective (h : escapeQuoted x = escapeQuoted y) : x = y :=
  flatMap_injective (fun _ => id) (by decide) writes_escapeQuotedChar h

/-- A text has no bracket, -/
theorem ne_of_mem_escape (hc : c ∈ escape text) : c ≠ '<' ∧ c ≠ '>' := by
  obtain ⟨d, -, hc⟩ := List.mem_flatMap.mp hc
  have hwrites := (writes_escapeChar d).eq_amp (fun _ => List.mem_cons_of_mem _) hc
  constructor
  · rintro rfl
    exact absurd (hwrites (by decide)) (by decide)
  · rintro rfl
    exact absurd (hwrites (by decide)) (by decide)

/-- and the value of an attribute no quote either. -/
theorem ne_of_mem_escapeQuoted (hc : c ∈ escapeQuoted text) : c ≠ '"' ∧ c ≠ '<' ∧ c ≠ '>' := by
  obtain ⟨d, -, hc⟩ := List.mem_flatMap.mp hc
  have hwrites := (writes_escapeQuotedChar d).eq_amp (fun _ => id) hc
  refine ⟨?_, ?_, ?_⟩
  · rintro rfl
    exact absurd (hwrites (by decide)) (by decide)
  · rintro rfl
    exact absurd (hwrites (by decide)) (by decide)
  · rintro rfl
    exact absurd (hwrites (by decide)) (by decide)

/-! ## 3. What is left of `&` -/

/-- Texts in which every `&` begins an entity. -/
inductive Escaped : List Char → Prop
  | nil : Escaped []
  | plain {c : Char} {text : List Char} (h : c ≠ '&') (tail : Escaped text) : Escaped (c :: text)
  | entity {c : Char} {name text : List Char} (h : (c, name) ∈ entities) (tail : Escaped text) :
      Escaped ('&' :: (name ++ text))

theorem Escaped.append (hx : Escaped x) (hy : Escaped y) : Escaped (x ++ y) := by
  induction hx with
  | nil => exact hy
  | plain h _ ih => exact .plain h ih
  | entity h _ ih =>
    rw [List.cons_append, List.append_assoc]
    exact .entity h ih

theorem escaped_of_ne (h : ∀ c ∈ text, c ≠ '&') : Escaped text := by
  induction text with
  | nil => exact .nil
  | cons c text ih =>
    obtain ⟨hc, htext⟩ := List.forall_mem_cons.mp h
    exact .plain hc (ih htext)

theorem escaped_flatMap {α : Type} {f : α → List Char} {xs : List α} (h : ∀ x ∈ xs, Escaped (f x)) :
    Escaped (xs.flatMap f) := by
  induction xs with
  | nil => exact .nil
  | cons x xs ih =>
    obtain ⟨hx, hxs⟩ := List.forall_mem_cons.mp h
    exact hx.append (ih hxs)

theorem Writes.escaped (hnamed : named ⊆ entities) (hamp : '&' ∈ named.map Prod.fst) (h : Writes named c form) :
    Escaped form := by
  rcases h with ⟨name, hname, rfl⟩ | ⟨hc, rfl⟩
  · have := Escaped.entity (hnamed hname) .nil
    rwa [List.append_nil] at this
  · refine .plain ?_ .nil
    rintro rfl
    exact hc hamp

theorem escaped_escape (text : List Char) : Escaped (escape text) :=
  escaped_flatMap fun c _ =>
    (writes_escapeChar c).escaped (fun _ => List.mem_cons_of_mem _) (by decide)

theorem escaped_escapeQuoted (text : List Char) : Escaped (escapeQuoted text) :=
  escaped_flatMap fun c _ => (writes_escapeQuotedChar c).escaped (fun _ => id) (by decide)

/-- **Every `&` begins an entity.** -/
theorem Escaped.entity_of_amp {front rest : List Char} (h : Escaped text) (hsplit : text = front ++ '&' :: rest) :
    ∃ name ∈ entities.map Prod.snd, name <+: rest := by
  induction h generalizing front with
  | nil => simp at hsplit
  | @plain c text hc _ ih =>
    cases front with
    | nil => exact absurd (List.cons.inj hsplit).1 hc
    | cons d front => exact ih (List.cons.inj hsplit).2
  | @entity c name text hname _ ih =>
    cases front with
    | nil => exact ⟨name, List.mem_map_of_mem hname, text, (List.cons.inj hsplit).2⟩
    | cons d front =>
      -- the `&` is not inside the entity, so it is behind it
      have hrest : name ++ text = front ++ '&' :: rest := (List.cons.inj hsplit).2
      rcases List.append_eq_append_iff.mp hrest with ⟨between, rfl, htext⟩ | ⟨between, rfl, hbetween⟩
      · exact ih htext
      · cases between with
        | nil =>
          have hhere : text = [] ++ '&' :: rest := by simpa using hbetween.symm
          exact ih hhere
        | cons e between =>
          obtain rfl : '&' = e := (List.cons.inj hbetween).1
          exact absurd (by decide) (notMem_entity hname (List.mem_append_right front List.mem_cons_self))

end

end LinkPane.Markup
