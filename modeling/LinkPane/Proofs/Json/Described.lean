import LinkPane.Proofs.Json.Records
import LinkPane.Proofs.Json.Written
import Mathlib.Data.List.Forall2
import Mathlib.Data.List.Pairwise

/-!
# What record an object is

The record of an object is described by its members, whatever their order:

* `Names`, `ObjectOf` -- the members of an object by name, with their values as they are written;
* `Field.Apart`, `Shape.Lawful` -- a record is nothing but its fields, and these do not disturb each other;
* `Described` -- the known members are distinct, each field that is given has the value that the text of the
  member decodes to, and each field that is not given has that of the blank record;
* `Shape.Fills`, **`foldlM_put_eq_ok_iff`** -- the same of the members that are left, by induction on them;
* **`decode_object_iff`** -- an object decodes to a record iff it describes that record;
* **`Described.of_perm`** -- neither unknown members nor the order of the known ones have a part in it;
* **`get_of_decode_list`** -- in a list, what is not given is that of the blank record too.
-/

namespace LinkPane.Json

/-! ## 1. Objects -/

/-- A key as it is written, and its name. -/
def Names (key : List Char) (name : String) : Prop :=
  ∃ signs text, key = '"' :: (signs ++ ['"']) ∧ Spelled signs text ∧ name = String.ofList text

/-- The text is an object of these members, with blanks around it. -/
def ObjectOf (text : List Char) (members : List (String × List Char)) : Prop :=
  ∃ a form b written, text = a ++ (form ++ b) ∧ Blank a ∧ Blank b ∧
    Wellformed form (.value (.object written)) ∧
      List.Forall₂ (fun (key, value) (name, value') => Names key name ∧ value = value') written members

section

variable {σ : Type} {shape : Shape σ} {record v : σ} {seen : List String} {name : String}
  {key form inside : List Char} {members members' : List (String × List Char)}

/-- A key that is a form of its name is read as that name. -/
theorem Names.outcome_eq (hk : Quoted key) (h : Names key name) : outcome readText key = .ok name := by
  obtain ⟨signs, text, rfl, hs, rfl⟩ := h
  have hvalue : outcome (readValue depthLimit) ('"' :: (signs ++ ['"'])) = .ok (.text (String.ofList text)) :=
    outcome_of_form hk.wellformed (.text hs)
  rw [readText, (settles_readScalar "a string" Value.text? hk.wellformed).outcome_eq, hvalue]
  rfl

/-- The keys in an object are quoted, and the values are well formed. -/
theorem Wellformed.quoted_of_mem {written : List (List Char × List Char)}
    (h : Wellformed inside (.members written)) {member : List Char × List Char} (hmem : member ∈ written) :
    Quoted member.1 ∧ ∃ parts, Wellformed member.2 (.value parts) := by
  generalize hsegment : Segment.members written = segment at h
  induction h generalizing written with
  | lastMember _ hk _ _ hvalue _ =>
    cases hsegment
    obtain rfl := List.mem_singleton.mp hmem
    exact ⟨hk, _, hvalue⟩
  | moreMembers _ hk _ _ hvalue _ _ _ ih =>
    cases hsegment
    rcases List.mem_cons.mp hmem with rfl | hmem
    · exact ⟨hk, _, hvalue⟩
    · exact ih hmem rfl
  | _ => cases hsegment

theorem Wellformed.quoted_of_mem_object {written : List (List Char × List Char)}
    (h : Wellformed form (.value (.object written))) :
    ∀ member ∈ written, Quoted member.1 ∧ ∃ parts, Wellformed member.2 (.value parts) := by
  intro member hmem
  cases h with
  | emptyObject => exact absurd hmem List.not_mem_nil
  | object hinside => exact hinside.quoted_of_mem hmem

/-- The values stay well formed where the keys are told by their names. -/
theorem wellformed_of_names {written : List (List Char × List Char)}
    (hwritten : ∀ member ∈ written, Quoted member.1 ∧ ∃ parts, Wellformed member.2 (.value parts))
    (hnames : List.Forall₂ (fun (key, value) (name, value') => Names key name ∧ value = value') written members) :
    ∀ member ∈ members, ∃ parts, Wellformed member.2 (.value parts) := by
  induction hnames with
  | nil => exact fun _ hmem => absurd hmem List.not_mem_nil
  | @cons first second written members hfirst _ ih =>
    obtain ⟨⟨-, hvalue⟩, hrest⟩ := List.forall_mem_cons.mp hwritten
    exact List.forall_mem_cons.mpr ⟨hfirst.2 ▸ hvalue, ih hrest⟩

theorem ObjectOf.wellformed {text : List Char} (h : ObjectOf text members) :
    ∀ member ∈ members, ∃ parts, Wellformed member.2 (.value parts) := by
  obtain ⟨_, _, _, written, -, -, -, hform, hnames⟩ := h
  exact wellformed_of_names hform.quoted_of_mem_object hnames

/-- A written key is a form of its name. -/
theorem names_writeText (name : String) : Names (writeText name) name :=
  ⟨_, name.toList, rfl, spelled_writeChars _, String.ofList_toList.symm⟩

theorem quoted_writeText (name : String) : Quoted (writeText name) :=
  .signs (spelled_writeChars name.toList).signs

theorem wellformed_intercalate (member : String × List Char)
    (h : ∀ m ∈ member :: members, ∃ parts, Wellformed m.2 (.value parts)) :
    Wellformed ([','].intercalate ((member :: members).map fun (name, form) => writeText name ++ ':' :: form))
      (.members ((member :: members).map fun (name, form) => (writeText name, form))) := by
  induction members generalizing member with
  | nil =>
    obtain ⟨parts, hform⟩ := h member List.mem_cons_self
    have := Wellformed.lastMember blank_nil (quoted_writeText member.1) blank_nil blank_nil hform blank_nil
    simpa using this
  | cons next members ih =>
    obtain ⟨⟨parts, hform⟩, hrest⟩ := List.forall_mem_cons.mp h
    have := Wellformed.moreMembers blank_nil (quoted_writeText member.1) blank_nil blank_nil hform blank_nil
      (ih next hrest)
    simpa [List.intercalate_cons_cons] using this

/-- Written members between brackets are an object of theirs. -/
theorem wellformed_writeObject (h : ∀ member ∈ members, ∃ parts, Wellformed member.2 (.value parts)) :
    Wellformed (writeObject members)
      (.value (.object (members.map fun (name, form) => (writeText name, form)))) := by
  cases members with
  | nil => exact .emptyObject blank_nil
  | cons member members => exact .object (wellformed_intercalate member h)

/-- The keys of a written object are forms of their names. -/
theorem names_writeObject (members : List (String × List Char)) :
    List.Forall₂ (fun (key, value) (name, value') => Names key name ∧ value = value')
      (members.map fun (name, form) => (writeText name, form)) members :=
  List.forall₂_map_left_iff.mpr (List.forall₂_same.mpr fun member _ => ⟨names_writeText member.1, rfl⟩)

/-- **A written object** is one of the members that are written. -/
theorem objectOf_writeObject (h : ∀ member ∈ members, ∃ parts, Wellformed member.2 (.value parts)) :
    ObjectOf (writeObject members) members :=
  ⟨[], _, [], _, by simp, blank_nil, blank_nil, wellformed_writeObject h, names_writeObject members⟩

/-! ## 2. Records by their fields -/

/-- Two fields have names of their own, and neither disturbs the other. -/
def Field.Apart (field other : Field σ) : Prop :=
  field.name ≠ other.name ∧ (∀ x record, other.get (field.set x record) = other.get record) ∧
    ∀ x record, field.get (other.set x record) = field.get record

/-- **A record is its fields**: what is set is there, no two fields disturb each other, and there is nothing
    else in it. -/
structure Shape.Lawful (shape : Shape σ) : Prop where
  get_set : ∀ field ∈ shape.fields, ∀ x record, field.get (field.set x record) = x
  apart : shape.fields.Pairwise Field.Apart
  ext : ∀ record record' : σ, (∀ field ∈ shape.fields, field.get record = field.get record') → record = record'

theorem Shape.Lawful.apart_of_ne (h : shape.Lawful) {field other : Field σ} (hf : field ∈ shape.fields)
    (ho : other ∈ shape.fields) (hne : field ≠ other) : field.Apart other := by
  have hsymm : Std.Symm fun field other : Field σ => field.Apart other :=
    ⟨fun _ _ h => ⟨h.1.symm, h.2.2, h.2.1⟩⟩
  exact h.apart.forall hf ho hne

/-- The fields have names of their own. -/
theorem Shape.Lawful.nodup_names (h : shape.Lawful) : (shape.fields.map Field.name).Nodup :=
  List.pairwise_map.mpr (h.apart.imp And.left)

/-- A name is that of one field. -/
theorem Shape.Lawful.unique (h : shape.Lawful) {field other : Field σ} (hf : field ∈ shape.fields)
    (ho : other ∈ shape.fields) (hname : field.name = other.name) : field = other := by
  by_contra hne
  exact (h.apart_of_ne hf ho hne).1 hname

theorem Shape.Lawful.get_set_other (h : shape.Lawful) {field other : Field σ} (hf : field ∈ shape.fields)
    (ho : other ∈ shape.fields) (hname : field.name ≠ other.name) (x : field.Content) (record : σ) :
    other.get (field.set x record) = other.get record := by
  have hne : field ≠ other := fun heq => hname (congrArg Field.name heq)
  exact (h.apart_of_ne hf ho hne).2.1 x record

/-- The members that are fields. -/
def Shape.known (shape : Shape σ) (members : List (String × List Char)) : List (String × List Char) :=
  members.filter fun member => (shape.field? member.1).isSome

/-- **What members say of a record.** -/
structure Described (shape : Shape σ) (members : List (String × List Char)) (v : σ) : Prop where
  distinct : ((shape.known members).map Prod.fst).Nodup
  given : ∀ field ∈ shape.fields, ∀ form, (field.name, form) ∈ members →
    decode field.read (String.ofList form) = .ok (field.get v)
  missing : ∀ field ∈ shape.fields, (∀ member ∈ members, member.1 ≠ field.name) →
    field.get v = field.get shape.blank

theorem Shape.field?_eq_some {field : Field σ} (h : shape.field? name = some field) :
    field ∈ shape.fields ∧ field.name = name :=
  ⟨List.mem_of_find?_eq_some h, by simpa using List.find?_some h⟩

theorem Shape.field?_eq_none (h : shape.field? name = none) {field : Field σ} (hf : field ∈ shape.fields) :
    field.name ≠ name := by
  simpa using List.find?_eq_none.mp h field hf

/-- A member with the name of a field is known. -/
theorem mem_known_of_mem {field : Field σ} (hf : field ∈ shape.fields) (h : (field.name, form) ∈ members) :
    (field.name, form) ∈ shape.known members := by
  refine List.mem_filter.mpr ⟨h, ?_⟩
  cases hfield : shape.field? field.name with
  | some other => rfl
  | none => exact absurd rfl (Shape.field?_eq_none hfield hf)

theorem mem_of_mem_known {member : String × List Char} (h : member ∈ shape.known members) :
    member ∈ members :=
  (List.mem_filter.mp h).1

/-! ## 3. Member by member -/

/-- What the members that are left say of a record, where `record` has been read and the names in `seen` have
    been given. -/
structure Shape.Fills (shape : Shape σ) (seen : List String) (record : σ)
    (members : List (String × List Char)) (v : σ) : Prop where
  distinct : ((shape.known members).map Prod.fst).Nodup
  fresh : ∀ member ∈ shape.known members, member.1 ∉ seen
  given : ∀ field ∈ shape.fields, ∀ form, (field.name, form) ∈ members →
    outcome field.read form = .ok (field.get v)
  missing : ∀ field ∈ shape.fields, (∀ member ∈ members, member.1 ≠ field.name) →
    field.get v = field.get record

/-- Where no member is left the record is what has been read. -/
theorem Shape.Lawful.fills_nil_iff (h : shape.Lawful) : shape.Fills seen record [] v ↔ v = record := by
  constructor
  · intro hfills
    exact h.ext v record fun field hf => hfills.missing field hf (by simp)
  · rintro rfl
    exact ⟨List.nodup_nil, by simp [Shape.known], by simp, fun _ _ _ => rfl⟩

theorem Shape.known_cons_of_none (h : shape.field? name = none) (form : List Char)
    (members : List (String × List Char)) : shape.known ((name, form) :: members) = shape.known members := by
  simp [Shape.known, h]

theorem Shape.known_cons_of_some {field : Field σ} (h : shape.field? name = some field) (form : List Char)
    (members : List (String × List Char)) :
    shape.known ((name, form) :: members) = (name, form) :: shape.known members := by
  simp [Shape.known, h]

/-- A member that is no field says nothing. -/
theorem fills_cons_of_none (h : shape.field? name = none) :
    shape.Fills seen record ((name, form) :: members) v ↔ shape.Fills seen record members v := by
  have hknown := Shape.known_cons_of_none h form members
  have hne : ∀ field ∈ shape.fields, name ≠ field.name := fun field hf => (Shape.field?_eq_none h hf).symm
  constructor
  · intro hfills
    refine ⟨hknown ▸ hfills.distinct, hknown ▸ hfills.fresh, fun field hf form' hmem => ?_,
      fun field hf hmissing => ?_⟩
    · exact hfills.given field hf form' (List.mem_cons_of_mem _ hmem)
    · exact hfills.missing field hf (List.forall_mem_cons.mpr ⟨hne field hf, hmissing⟩)
  · intro hfills
    refine ⟨hknown.symm ▸ hfills.distinct, hknown.symm ▸ hfills.fresh, fun field hf form' hmem => ?_,
      fun field hf hmissing => ?_⟩
    · rcases List.mem_cons.mp hmem with heq | hmem
      · exact absurd (congrArg Prod.fst heq).symm (hne field hf)
      · exact hfills.given field hf form' hmem
    · exact hfills.missing field hf (List.forall_mem_cons.mp hmissing).2

/-- A member that is a field must be new and have a value, and the field is settled with it. -/
theorem Shape.Lawful.fills_cons_of_some (hl : shape.Lawful) {field : Field σ}
    (h : shape.field? name = some field) :
    shape.Fills seen record ((name, form) :: members) v ↔
      name ∉ seen ∧ ∃ x, outcome field.read form = .ok x ∧
        shape.Fills (name :: seen) (field.set x record) members v := by
  have hknown := Shape.known_cons_of_some h form members
  obtain ⟨hf, rfl⟩ := Shape.field?_eq_some h
  constructor
  · intro hfills
    have hdistinct := hfills.distinct
    have hfresh := hfills.fresh
    rw [hknown, List.map_cons, List.nodup_cons] at hdistinct
    rw [hknown, List.forall_mem_cons] at hfresh
    refine ⟨hfresh.1, field.get v, hfills.given field hf form List.mem_cons_self, hdistinct.2,
      fun member hmem hin => ?_, fun other ho form' hmem => ?_, fun other ho hmissing => ?_⟩
    · rcases List.mem_cons.mp hin with heq | hin
      · exact hdistinct.1 (List.mem_map.mpr ⟨member, hmem, heq⟩)
      · exact hfresh.2 member hmem hin
    · exact hfills.given other ho form' (List.mem_cons_of_mem _ hmem)
    · by_cases hname : field.name = other.name
      · obtain rfl := hl.unique hf ho hname
        rw [hl.get_set field hf]
      · rw [hl.get_set_other hf ho hname]
        exact hfills.missing other ho (List.forall_mem_cons.mpr ⟨hname, hmissing⟩)
  · rintro ⟨hseen, x, hx, hfills⟩
    -- the field is not given again, so it keeps the value of this member
    have hlater : ∀ member ∈ members, member.1 ≠ field.name := fun member hmem heq => by
      have hmem' : (field.name, member.2) ∈ members := heq ▸ hmem
      exact hfills.fresh _ (mem_known_of_mem hf hmem') List.mem_cons_self
    have hget : field.get v = x := by
      rw [hfills.missing field hf hlater, hl.get_set field hf]
    refine ⟨?_, ?_, fun other ho form' hmem => ?_, fun other ho hmissing => ?_⟩
    · rw [hknown, List.map_cons, List.nodup_cons]
      refine ⟨fun hin => ?_, hfills.distinct⟩
      obtain ⟨member, hmem, heq⟩ := List.mem_map.mp hin
      exact hlater member (mem_of_mem_known hmem) heq
    · rw [hknown, List.forall_mem_cons]
      exact ⟨hseen, fun member hmem hin => hfills.fresh member hmem (List.mem_cons_of_mem _ hin)⟩
    · rcases List.mem_cons.mp hmem with heq | hmem
      · obtain ⟨hname, rfl⟩ := Prod.mk.inj heq
        obtain rfl := hl.unique ho hf hname
        rw [hx, hget]
      · exact hfills.given other ho form' hmem
    · obtain ⟨hname, hmissing⟩ := List.forall_mem_cons.mp hmissing
      rw [hfills.missing other ho hmissing, hl.get_set_other hf ho hname]

/-- **Members are put into a record iff that is what they say of it.** -/
theorem foldlM_put_eq_ok_iff (hl : shape.Lawful) :
    (members.foldlM (fun state member => shape.put member.1 member.2 state) (record, seen)).map Prod.fst =
      .ok v ↔ shape.Fills seen record members v := by
  induction members generalizing record seen with
  | nil =>
    rw [hl.fills_nil_iff]
    show Except.ok record = Except.ok v ↔ _
    rw [Except.ok.injEq, eq_comm]
  | cons member members ih =>
    obtain ⟨name, form⟩ := member
    rw [List.foldlM_cons, Shape.put]
    cases h : shape.field? name with
    | none =>
      rw [fills_cons_of_none h]
      exact ih
    | some field =>
      rw [hl.fills_cons_of_some h]
      dsimp only
      by_cases hseen : name ∈ seen
      · rw [if_pos hseen]
        constructor
        · intro hput
          cases hput
        · intro hfills
          exact absurd hseen hfills.1
      · rw [if_neg hseen]
        cases hx : outcome field.read form with
        | error cause =>
          constructor
          · intro hput
            cases hput
          · rintro ⟨-, x, hok, -⟩
            cases hok
        | ok x =>
          constructor
          · intro hput
            exact ⟨hseen, x, rfl, ih.mp hput⟩
          · rintro ⟨-, y, hy, hfills⟩
            cases hy
            exact ih.mpr hfills

/-! ## 4. Whole objects -/

/-- Members are put into a record by their names. -/
theorem foldlM_putMember {written : List (List Char × List Char)}
    (hwritten : ∀ member ∈ written, Quoted member.1 ∧ ∃ parts, Wellformed member.2 (.value parts))
    (hnames : List.Forall₂ (fun (key, value) (name, value') => Names key name ∧ value = value') written members)
    (state : σ × List String) :
    written.foldlM shape.putMember state =
      members.foldlM (fun state member => shape.put member.1 member.2 state) state := by
  induction hnames generalizing state with
  | nil => rfl
  | @cons first second written members hfirst _ ih =>
    obtain ⟨⟨hquoted, -⟩, hrest⟩ := List.forall_mem_cons.mp hwritten
    have hput : shape.putMember state first = shape.put second.1 second.2 state := by
      rw [Shape.putMember, hfirst.1.outcome_eq hquoted, hfirst.2]
      rfl
    rw [List.foldlM_cons, List.foldlM_cons, hput]
    congr 1
    funext state
    exact ih hrest state

/-- From the beginning, what the members say is what describes the record. -/
theorem fills_iff_described (hsteady : ∀ field ∈ shape.fields, Steady field.read)
    (hvalues : ∀ member ∈ members, ∃ parts, Wellformed member.2 (.value parts)) :
    shape.Fills [] shape.blank members v ↔ Described shape members v := by
  have hdecode : ∀ field ∈ shape.fields, ∀ form, (field.name, form) ∈ members →
      (decode field.read (String.ofList form) = .ok (field.get v) ↔
        outcome field.read form = .ok (field.get v)) := fun field hf form hmem => by
    obtain ⟨parts, hform⟩ := hvalues _ hmem
    exact (hsteady field hf).decode_ofList_eq_ok_iff hform
  constructor
  · intro h
    exact ⟨h.distinct, fun field hf form hmem => (hdecode field hf form hmem).mpr (h.given field hf form hmem),
      h.missing⟩
  · intro h
    exact ⟨h.distinct, fun _ _ => List.not_mem_nil,
      fun field hf form hmem => (hdecode field hf form hmem).mp (h.given field hf form hmem), h.missing⟩

/-- **An object decodes to a record iff it describes that record.** -/
theorem decode_object_iff (hl : shape.Lawful) (hsteady : ∀ field ∈ shape.fields, Steady field.read)
    {payload : String} (h : ObjectOf payload.toList members) :
    decode shape.read payload = .ok v ↔ Described shape members v := by
  have hvalues := h.wellformed
  obtain ⟨a, form, b, written, hpayload, ha, hb, hform, hnames⟩ := h
  rw [(steady_shape hsteady).decode_eq_ok_iff hform hpayload ha hb, (settles_object hsteady hform).outcome_eq,
    Shape.gather, foldlM_putMember hform.quoted_of_mem_object hnames, foldlM_put_eq_ok_iff hl,
    fills_iff_described hsteady hvalues]

/-- **Unknown members and the order of the known ones** have no part in what is described. -/
theorem Described.of_perm (h : Described shape members v)
    (hperm : (shape.known members).Perm (shape.known members')) : Described shape members' v := by
  refine ⟨(hperm.map Prod.fst).nodup_iff.mp h.distinct, fun field hf form hmem => ?_,
    fun field hf hmissing => ?_⟩
  · exact h.given field hf form (mem_of_mem_known (hperm.mem_iff.mpr (mem_known_of_mem hf hmem)))
  · refine h.missing field hf fun member hmem heq => ?_
    have hknown : (field.name, member.2) ∈ shape.known members := mem_known_of_mem hf (heq ▸ hmem)
    exact hmissing _ (mem_of_mem_known (hperm.mem_iff.mp hknown)) rfl

/-- What describes no record is refused. -/
theorem decode_object_error (hl : shape.Lawful) (hsteady : ∀ field ∈ shape.fields, Steady field.read)
    {payload : String} (h : ObjectOf payload.toList members) (hnone : ∀ v, ¬ Described shape members v) :
    ∃ error, decode shape.read payload = .error error := by
  cases hdecode : decode shape.read payload with
  | error error => exact ⟨error, rfl⟩
  | ok v => exact absurd ((decode_object_iff hl hsteady h).mp hdecode) (hnone v)

/-! ## 5. Whole lists -/

/-- The fields behind the last item are left as they were. -/
theorem fillRow_missing {fields : List (Field σ)} (hapart : fields.Pairwise Field.Apart)
    {items : List (List Char)} (h : fillRow fields record items = .ok v) :
    ∀ field ∈ fields.drop items.length, field.get v = field.get record := by
  induction items generalizing fields record with
  | nil =>
    rw [fillRow_nil, Except.ok.injEq] at h
    exact fun _ _ => by rw [h]
  | cons form items ih =>
    cases fields with
    | nil => cases h
    | cons first fields =>
      obtain ⟨hfirst, hrest⟩ := List.pairwise_cons.mp hapart
      rw [fillRow] at h
      cases hx : outcome first.read form with
      | error cause =>
        rw [hx] at h
        cases h
      | ok x =>
        rw [hx] at h
        intro field hf
        have hfield : field ∈ fields := List.mem_of_mem_drop hf
        rw [ih hrest h field hf, (hfirst field hfield).2.1]

/-- **A list completes itself from the blank record.** -/
theorem get_of_decode_list (hl : shape.Lawful) (hsteady : ∀ field ∈ shape.fields, Steady field.read)
    {items : List (List Char)} (hform : Wellformed form (.value (.list items)))
    (h : decode shape.read (String.ofList form) = .ok v) :
    ∀ field ∈ shape.fields.drop items.length, field.get v = field.get shape.blank := by
  rw [(steady_shape hsteady).decode_ofList_eq_ok_iff hform, (settles_list hsteady hform).outcome_eq] at h
  exact fillRow_missing hl.apart h

end

end LinkPane.Json
