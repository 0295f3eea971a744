import LinkPane.Proofs.Json.Described

/-!
# What is inside a value that is read

A value that the grammar derives is well formed, and what it was read from is what is written: the items of a
list are those between its commas, and the members of an object are those that it is written with, each with
its own derivation.

* `Wellformed.append_inj` -- it is known where a value begins and ends;
* `Form.written`, `Form.mono` -- a derivation is that of a well-formed text, and more room does no harm;
* **`Form.items`**, **`Form.members`** -- what is derived inside a list and inside an object, by induction on the
  row as it is written; **`Form.of_list`**, **`Form.of_object`** -- the same of whole values;
* `Valued`, `valued_of_derives` -- the members of an object by name, with the values that are derived;
* `Form.of_isText`, `Form.outcome_eq` -- derivations and what is read.
-/

namespace LinkPane.Json

section

variable {room room' : Nat} {a a' b b' form form' inside tail tail' x y text : List Char} {c : Char}
  {parts parts' : Parts} {v : Value}

/-! ## 1. Where a value ends -/

/-- **It is known where a value begins and ends.** -/
theorem Wellformed.append_inj (h : Wellformed form (.value parts)) (h' : Wellformed form' (.value parts'))
    (ha : Blank a) (ha' : Blank a') (ht : Bounded tail) (ht' : Bounded tail')
    (heq : a ++ (form ++ tail) = a' ++ (form' ++ tail')) : form = form' ∧ tail = tail' := by
  have hskip := told_eq_ok_iff.mp (settles_skipValue h a tail ha ht)
  have hskip' := told_eq_ok_iff.mp (settles_skipValue h' a' tail' ha' ht')
  rw [heq, hskip', Except.ok.injEq, Prod.mk.injEq] at hskip
  obtain rfl := hskip.2
  have hdrop : form ++ tail' = form' ++ tail' := by rw [← h.dropBlank_eq ha, heq, h'.dropBlank_eq ha']
  exact ⟨List.append_cancel_right hdrop, rfl⟩

/-- Behind blanks the first sign that is none is at one place. -/
theorem Blank.append_cons_inj (hb : Blank b) (hb' : Blank b') (hc : isBlank c = false)
    (heq : b ++ c :: x = b' ++ c :: y) : x = y := by
  have hdrop : c :: x = c :: y := by rw [← dropBlank_append hb hc x, heq, dropBlank_append hb' hc]
  exact (List.cons.inj hdrop).2

theorem Blank.ne_append_cons (hb : Blank b) (hc : isBlank c = false) : b ≠ b' ++ c :: x := by
  rintro rfl
  have hblank := isBlank_iff.mpr (hb c (List.mem_append_right _ List.mem_cons_self))
  rw [hc] at hblank
  cases hblank

/-! ## 2. Derivations -/

/-- The text is well formed, and of the kind of the part. -/
def Part.Written (text : List Char) : Part → Prop
  | .value _ => ∃ parts, Wellformed text (.value parts)
  | .items _ => ∃ items, Wellformed text (.items items)
  | .members _ => ∃ members, Wellformed text (.members members)

theorem Spelled.quoted {signs : List Char} (h : Spelled signs text) : Quoted ('"' :: (signs ++ ['"'])) :=
  .signs h.signs

/-- **What is derived is well formed.** -/
theorem Form.written {part : Part} (h : Form room text part) : part.Written text := by
  induction h with
  | null => exact ⟨_, .null⟩
  | yes => exact ⟨_, .yes⟩
  | no => exact ⟨_, .no⟩
  | number h _ => exact ⟨_, .number h⟩
  | text h => exact ⟨_, .text h.quoted⟩
  | emptyList ha => exact ⟨_, .emptyList ha⟩
  | list _ ih =>
    obtain ⟨items, h⟩ := ih
    exact ⟨_, .list h⟩
  | emptyObject ha => exact ⟨_, .emptyObject ha⟩
  | object _ ih =>
    obtain ⟨members, h⟩ := ih
    exact ⟨_, .object h⟩
  | lastItem ha _ hb ih =>
    obtain ⟨parts, h⟩ := ih
    exact ⟨_, .lastItem ha h hb⟩
  | moreItems ha _ hb _ ih ihtail =>
    obtain ⟨parts, h⟩ := ih
    obtain ⟨items, htail⟩ := ihtail
    exact ⟨_, .moreItems ha h hb htail⟩
  | lastMember ha hk hb hc _ hd ih =>
    obtain ⟨parts, h⟩ := ih
    have := Wellformed.lastMember ha hk.quoted hb hc h hd
    exact ⟨_, by simpa using this⟩
  | moreMembers ha hk hb hc _ hd _ ih ihtail =>
    obtain ⟨parts, h⟩ := ih
    obtain ⟨members, htail⟩ := ihtail
    have := Wellformed.moreMembers ha hk.quoted hb hc h hd htail
    exact ⟨_, by simpa using this⟩

/-- More room does no harm. -/
theorem Form.mono {part : Part} (h : Form room text part) (hle : room ≤ room') : Form room' text part := by
  induction h generalizing room' with
  | null => exact .null
  | yes => exact .yes
  | no => exact .no
  | number h range => exact .number h range
  | text h => exact .text h
  | emptyList ha =>
    obtain ⟨room', rfl⟩ := Nat.exists_eq_succ_of_ne_zero (Nat.ne_zero_of_lt hle)
    exact .emptyList ha
  | list _ ih =>
    obtain ⟨room', rfl⟩ := Nat.exists_eq_succ_of_ne_zero (Nat.ne_zero_of_lt hle)
    exact .list (ih (Nat.le_of_succ_le_succ hle))
  | emptyObject ha =>
    obtain ⟨room', rfl⟩ := Nat.exists_eq_succ_of_ne_zero (Nat.ne_zero_of_lt hle)
    exact .emptyObject ha
  | object _ ih =>
    obtain ⟨room', rfl⟩ := Nat.exists_eq_succ_of_ne_zero (Nat.ne_zero_of_lt hle)
    exact .object (ih (Nat.le_of_succ_le_succ hle))
  | lastItem ha _ hb ih => exact .lastItem ha (ih hle) hb
  | moreItems ha _ hb _ ih ihtail => exact .moreItems ha (ih hle) hb (ihtail hle)
  | lastMember ha hk hb hc _ hd ih => exact .lastMember ha hk hb hc (ih hle) hd
  | moreMembers ha hk hb hc _ hd _ ih ihtail => exact .moreMembers ha hk hb hc (ih hle) hd (ihtail hle)

/-! ## 3. Rows -/

theorem bounded_comma (hb : Blank b) (rest : List Char) : Bounded (b ++ ',' :: rest) :=
  bounded_append hb (.inl (.inr (.inl rfl))) rest

/-- **The items that are derived** are those that are written. -/
theorem Form.items {written : List (List Char)} {items : List Value} (h : Wellformed inside (.items written))
    (hf : Form room inside (.items items)) :
    List.Forall₂ (fun form item => Form room form (.value item)) written items := by
  generalize hsegment : Segment.items written = segment at h
  generalize hpart : Part.items items = part at hf
  generalize hsame : inside = text at hf
  induction h generalizing written items part text with
  | @lastItem a form b parts ha h hb =>
    cases hsegment
    cases hf with
    | lastItem ha' hform hb' =>
      cases hpart
      obtain ⟨parts', h'⟩ := hform.written
      obtain ⟨rfl, -⟩ := h.append_inj h' ha ha' (bounded_of_blank hb) (bounded_of_blank hb') hsame
      exact .cons hform .nil
    | moreItems ha' hform hb' _ =>
      obtain ⟨parts', h'⟩ := hform.written
      obtain ⟨-, htail⟩ := h.append_inj h' ha ha' (bounded_of_blank hb) (bounded_comma hb' _) hsame
      exact absurd htail (hb.ne_append_cons rfl)
    | _ => cases hpart
  | @moreItems a form b rest parts written ha h hb _ _ ih =>
    cases hsegment
    cases hf with
    | lastItem ha' hform hb' =>
      obtain ⟨parts', h'⟩ := hform.written
      obtain ⟨-, htail⟩ := h.append_inj h' ha ha' (bounded_comma hb _) (bounded_of_blank hb') hsame
      exact absurd htail.symm (hb'.ne_append_cons rfl)
    | moreItems ha' hform hb' hrest =>
      cases hpart
      obtain ⟨parts', h'⟩ := hform.written
      obtain ⟨rfl, htail⟩ := h.append_inj h' ha ha' (bounded_comma hb _) (bounded_comma hb' _) hsame
      exact .cons hform (ih rfl _ rfl _ (hb.append_cons_inj hb' rfl htail) hrest)
    | _ => cases hpart
  | _ => cases hsegment

/-- A member is written in one way, with its key and its value, in front of what is behind it. -/
theorem member_inj {key key' c c' : List Char} (ha : Blank a) (hk : Quoted key) (hb : Blank b) (hc : Blank c)
    (h : Wellformed form (.value parts)) (ht : Bounded tail) (ha' : Blank a') (hk' : Quoted key') (hb' : Blank b')
    (hc' : Blank c') (h' : Wellformed form' (.value parts')) (ht' : Bounded tail')
    (heq : a ++ (key ++ (b ++ ':' :: (c ++ (form ++ tail)))) =
      a' ++ (key' ++ (b' ++ ':' :: (c' ++ (form' ++ tail'))))) :
    key = key' ∧ form = form' ∧ tail = tail' := by
  obtain ⟨hkey, hcolon⟩ := hk.wellformed.append_inj hk'.wellformed ha ha' (bounded_append hb (.inr rfl) _)
    (bounded_append hb' (.inr rfl) _) heq
  exact ⟨hkey, h.append_inj h' hc hc' ht ht' (hb.append_cons_inj hb' rfl hcolon)⟩

/-- A member as it is written, and as it is derived. -/
def Derives (room : Nat) (member : List Char × List Char) (named : String × Value) : Prop :=
  Names member.1 named.1 ∧ Form room member.2 (.value named.2)

/-- **The members that are derived** are those that are written, under the names of their keys. -/
theorem Form.members {written : List (List Char × List Char)} {members : List (String × Value)}
    (h : Wellformed inside (.members written)) (hf : Form room inside (.members members)) :
    List.Forall₂ (Derives room) written members := by
  generalize hsegment : Segment.members written = segment at h
  generalize hpart : Part.members members = part at hf
  generalize hsame : inside = text at hf
  induction h generalizing written members part text with
  | @lastMember a key b c form d parts ha hk hb hc h hd =>
    cases hsegment
    cases hf with
    | @lastMember _ a' signs b' c' form' d' name v ha' hs hb' hc' hform hd' =>
      cases hpart
      obtain ⟨parts', h'⟩ := hform.written
      obtain ⟨rfl, rfl, -⟩ := member_inj ha hk hb hc h (bounded_of_blank hd) ha' hs.quoted hb' hc' h'
        (bounded_of_blank hd') (by simpa using hsame)
      exact .cons ⟨⟨_, _, rfl, hs, rfl⟩, hform⟩ .nil
    | moreMembers ha' hs hb' hc' hform hd' _ =>
      obtain ⟨parts', h'⟩ := hform.written
      obtain ⟨-, -, htail⟩ := member_inj ha hk hb hc h (bounded_of_blank hd) ha' hs.quoted hb' hc' h'
        (bounded_comma hd' _) (by simpa using hsame)
      exact absurd htail (hd.ne_append_cons rfl)
    | _ => cases hpart
  | @moreMembers a key b c form d rest parts written ha hk hb hc h hd _ _ ih =>
    cases hsegment
    cases hf with
    | lastMember ha' hs hb' hc' hform hd' =>
      obtain ⟨parts', h'⟩ := hform.written
      obtain ⟨-, -, htail⟩ := member_inj ha hk hb hc h (bounded_comma hd _) ha' hs.quoted hb' hc' h'
        (bounded_of_blank hd') (by simpa using hsame)
      exact absurd htail.symm (hd'.ne_append_cons rfl)
    | moreMembers ha' hs hb' hc' hform hd' hrest =>
      cases hpart
      obtain ⟨parts', h'⟩ := hform.written
      obtain ⟨rfl, rfl, htail⟩ := member_inj ha hk hb hc h (bounded_comma hd _) ha' hs.quoted hb' hc' h'
        (bounded_comma hd' _) (by simpa using hsame)
      exact .cons ⟨⟨_, _, rfl, hs, rfl⟩, hform⟩ (ih rfl _ rfl _ (hd.append_cons_inj hd' rfl htail) hrest)
    | _ => cases hpart
  | _ => cases hsegment

/-! ## 4. Values -/

/-- There is something in a row. -/
theorem Wellformed.not_blank_items {written : List (List Char)} (h : Wellformed inside (.items written)) :
    ¬ Blank inside := by
  intro hblank
  obtain ⟨c, more, hdrop, -⟩ := h.dropBlank_items []
  rw [List.append_nil, dropBlank_of_blank hblank] at hdrop
  cases hdrop

theorem Wellformed.not_blank_members {written : List (List Char × List Char)}
    (h : Wellformed inside (.members written)) : ¬ Blank inside := by
  intro hblank
  obtain ⟨more, hdrop⟩ := h.dropBlank_members []
  rw [List.append_nil, dropBlank_of_blank hblank] at hdrop
  cases hdrop

/-- No number begins with a bracket. -/
theorem NumberForm.ne_cons {literal : Literal} (h : NumberForm form literal) (hc : c = '[' ∨ c = '{')
    (rest : List Char) : c :: rest ≠ form := by
  obtain ⟨d, more, rfl, hd⟩ := h.starts
  intro heq
  obtain ⟨rfl, -⟩ := List.cons.inj heq
  rcases hc with rfl | rfl <;> exact absurd hd (by decide)

/-- What begins with the bracket of a list is derived from what is inside, -/
theorem Form.inside_list {rest : List Char} (hf : Form room ('[' :: rest) (.value v)) :
    ∃ room' inside items, room = room' + 1 ∧ rest = inside ++ [']'] ∧ v = .list items ∧
      (Blank inside ∧ items = [] ∨ Form room' inside (.items items)) := by
  generalize htext : '[' :: rest = text at hf
  cases hf with
  | number hn _ => exact absurd htext (hn.ne_cons (.inl rfl) rest)
  | emptyList ha => exact ⟨_, _, [], rfl, (List.cons.inj htext).2, rfl, .inl ⟨ha, rfl⟩⟩
  | list h => exact ⟨_, _, _, rfl, (List.cons.inj htext).2, rfl, .inr h⟩
  | _ => cases htext

/-- and so is what begins with the bracket of an object. -/
theorem Form.inside_object {rest : List Char} (hf : Form room ('{' :: rest) (.value v)) :
    ∃ room' inside members, room = room' + 1 ∧ rest = inside ++ ['}'] ∧ v = .object members ∧
      (Blank inside ∧ members = [] ∨ Form room' inside (.members members)) := by
  generalize htext : '{' :: rest = text at hf
  cases hf with
  | number hn _ => exact absurd htext (hn.ne_cons (.inr rfl) rest)
  | emptyObject ha => exact ⟨_, _, [], rfl, (List.cons.inj htext).2, rfl, .inl ⟨ha, rfl⟩⟩
  | object h => exact ⟨_, _, _, rfl, (List.cons.inj htext).2, rfl, .inr h⟩
  | _ => cases htext

/-- **A list is derived from its items**, -/
theorem Form.of_list {written : List (List Char)} (h : Wellformed form (.value (.list written)))
    (hf : Form room form (.value v)) : ∃ room' items, room = room' + 1 ∧ v = .list items ∧
      List.Forall₂ (fun form item => Form room' form (.value item)) written items := by
  cases h with
  | @emptyList a ha =>
    obtain ⟨room', inside, items, rfl, hrest, rfl, ⟨-, rfl⟩ | hinside⟩ := hf.inside_list
    · exact ⟨room', [], rfl, rfl, .nil⟩
    · obtain ⟨_, hrow⟩ := hinside.written
      exact absurd (List.append_cancel_right hrest ▸ ha) hrow.not_blank_items
  | @list text _ hrow =>
    obtain ⟨room', inside, items, rfl, hrest, rfl, ⟨hblank, -⟩ | hinside⟩ := hf.inside_list
    · exact absurd hblank (List.append_cancel_right hrest ▸ hrow.not_blank_items)
    · obtain rfl := List.append_cancel_right hrest
      exact ⟨room', items, rfl, rfl, Form.items hrow hinside⟩

/-- **and an object from its members.** -/
theorem Form.of_object {written : List (List Char × List Char)} (h : Wellformed form (.value (.object written)))
    (hf : Form room form (.value v)) : ∃ room' members, room = room' + 1 ∧ v = .object members ∧
      List.Forall₂ (Derives room') written members := by
  cases h with
  | @emptyObject a ha =>
    obtain ⟨room', inside, members, rfl, hrest, rfl, ⟨-, rfl⟩ | hinside⟩ := hf.inside_object
    · exact ⟨room', [], rfl, rfl, .nil⟩
    · obtain ⟨_, hrow⟩ := hinside.written
      exact absurd (List.append_cancel_right hrest ▸ ha) hrow.not_blank_members
  | @object text _ hrow =>
    obtain ⟨room', inside, members, rfl, hrest, rfl, ⟨hblank, -⟩ | hinside⟩ := hf.inside_object
    · exact absurd hblank (List.append_cancel_right hrest ▸ hrow.not_blank_members)
    · obtain rfl := List.append_cancel_right hrest
      exact ⟨room', members, rfl, rfl, Form.members hrow hinside⟩

/-! ## 5. Members by name -/

/-- A member with its value, and as it is written under its name. -/
def Valued (room : Nat) (named : String × Value) (member : String × List Char) : Prop :=
  named.1 = member.1 ∧ Form room member.2 (.value named.2)

variable {written : List (List Char × List Char)} {named : List (String × Value)}
  {members : List (String × List Char)} {name : String}

/-- A key has one name. -/
theorem Names.unique {key : List Char} {name' : String} (hk : Quoted key) (h : Names key name)
    (h' : Names key name') : name = name' := by
  have hname := h.outcome_eq hk
  rw [h'.outcome_eq hk] at hname
  exact (Except.ok.inj hname).symm

/-- The members of an object have the values that are derived for them. -/
theorem valued_of_derives (hwritten : ∀ member ∈ written, Quoted member.1)
    (hnames : List.Forall₂ (fun key member => Names key.1 member.1 ∧ key.2 = member.2) written members)
    (hderives : List.Forall₂ (Derives room) written named) : List.Forall₂ (Valued room) named members := by
  induction hnames generalizing named with
  | nil =>
    cases hderives
    exact .nil
  | cons hfirst _ ih =>
    obtain ⟨hquoted, hrest⟩ := List.forall_mem_cons.mp hwritten
    cases hderives with
    | cons hvalue hvalues =>
      exact .cons ⟨hvalue.1.unique hquoted hfirst.1, hfirst.2 ▸ hvalue.2⟩ (ih hrest hvalues)

/-- What is derived has members with names. -/
theorem exists_names (hderives : List.Forall₂ (Derives room) written named) :
    ∃ members : List (String × List Char),
      List.Forall₂ (fun key member => Names key.1 member.1 ∧ key.2 = member.2) written members := by
  induction hderives with
  | nil => exact ⟨[], .nil⟩
  | @cons key value _ _ hfirst _ ih =>
    obtain ⟨members, hnames⟩ := ih
    exact ⟨(value.1, key.2) :: members, .cons ⟨hfirst.1, rfl⟩ hnames⟩

/-- Every member has a value. -/
theorem exists_form_of_mem (h : List.Forall₂ (Valued room) named members) {member : String × List Char}
    (hmem : member ∈ members) : ∃ v, Form room member.2 (.value v) := by
  induction h with
  | nil => exact absurd hmem List.not_mem_nil
  | cons hfirst _ ih =>
    rcases List.mem_cons.mp hmem with rfl | hmem
    · exact ⟨_, hfirst.2⟩
    · exact ih hmem

theorem names_eq (h : List.Forall₂ (Valued room) named members) :
    named.map Prod.fst = members.map Prod.fst := by
  rw [← List.forall₂_eq_eq_eq, List.forall₂_map_left_iff, List.forall₂_map_right_iff]
  exact h.imp fun _ _ hvalued => hvalued.1

/-! ## 6. What is read -/

/-- A text of a value is a derivation of the value in it. -/
theorem Form.of_isText (h : IsText room text v) (hform : Wellformed form (.value parts))
    (htext : text = a ++ (form ++ b)) (ha : Blank a) (hb : Blank b) : Form room form (.value v) := by
  obtain ⟨a', form', b', htext', ha', hf, hb'⟩ := h
  obtain ⟨parts', h'⟩ := hf.written
  obtain ⟨rfl, -⟩ := hform.append_inj h' ha ha' (bounded_of_blank hb) (bounded_of_blank hb') (htext ▸ htext')
  exact hf

/-- What is derived is read. -/
theorem Form.outcome_eq (hf : Form room form (.value v)) : outcome (readValue room) form = .ok v := by
  obtain ⟨parts, h⟩ := hf.written
  exact outcome_of_form h hf

end

end LinkPane.Json
