import LinkPane.Proofs.Json.Described
import Mathlib.Data.List.Induction

/-!
# The first fault of an object

An object is refused for the first member with which something is wrong, for what is wrong with that member, and
nothing behind it has a part in that:

* `Faulty` -- a member is a field that was given before, or its value does not decode on its own;
* `Sound`, `FirstFault` -- nothing is wrong with the members in front;
* `Remembers` -- the names that are remembered are those of the fields that were given;
* `put_cases` -- one member: it is put into the record and remembered, or it is faulty;
* **`foldlM_put_cases`** -- a row of members, by induction on the row: all of them are sound, or it stops at the
  first fault;
* `OpensObject` -- a text that begins like an object, whatever comes behind some members of it;
* **`exists_firstFault`** -- an object that is refused has a first fault, and is refused for it;
* **`decode_of_firstFault`** -- a text that begins like an object is refused for the first fault in its members.
-/

namespace LinkPane.Json

section

variable {σ : Type} {shape : Shape σ} {seen : List String} {name : String} {cause : Cause}
  {form inside text : List Char} {parts : Parts} {member : String × List Char}
  {members front : List (String × List Char)}

/-! ## 1. Faults -/

/-- **What is wrong with a member** that comes behind those in `front`: its name is that of a field and was given
    before, or it is that of a field for which the value does not decode on its own. -/
inductive Faulty (shape : Shape σ) (front : List (String × List Char)) : String × List Char → Cause → Prop
  | repeated {field : Field σ} {name : String} {form : List Char} (hf : field ∈ shape.fields)
      (hname : field.name = name) (given : name ∈ front.map Prod.fst) :
      Faulty shape front (name, form) (.duplicateField name)
  | unreadable {field : Field σ} {name : String} {form : List Char} {alone : Error} (hf : field ∈ shape.fields)
      (hname : field.name = name) (new : name ∉ front.map Prod.fst)
      (hread : decode field.read (String.ofList form) = .error alone) : Faulty shape front (name, form) alone.cause

/-- Nothing is wrong with any of the members. -/
def Sound (shape : Shape σ) (members : List (String × List Char)) : Prop :=
  ∀ before other after, members = before ++ other :: after → ∀ cause, ¬ Faulty shape before other cause

/-- **The first fault** of some members: something is wrong with `member`, and with none of those in front. -/
structure FirstFault (shape : Shape σ) (members front : List (String × List Char)) (member : String × List Char)
    (cause : Cause) : Prop where
  begins : front ++ [member] <+: members
  sound : Sound shape front
  fault : Faulty shape front member cause

theorem sound_nil : Sound shape [] := fun before other after h => by simp at h

/-- One more member that is in order. -/
theorem Sound.snoc (h : Sound shape front) (hmember : ∀ cause, ¬ Faulty shape front member cause) :
    Sound shape (front ++ [member]) := by
  intro before other after hsplit
  rcases List.eq_nil_or_concat after with rfl | ⟨after, last, rfl⟩
  · obtain ⟨rfl, hlast⟩ := List.append_inj' hsplit rfl
    obtain rfl := List.singleton_inj.mp hlast
    exact hmember
  · rw [List.concat_eq_append, ← List.cons_append, ← List.append_assoc] at hsplit
    exact h before other after (List.append_inj' hsplit rfl).1

/-- A first fault stays the first where more members follow. -/
theorem FirstFault.append (h : FirstFault shape members front member cause) (more : List (String × List Char)) :
    FirstFault shape (members ++ more) front member cause :=
  ⟨h.begins.trans (List.prefix_append members more), h.sound, h.fault⟩

/-- A field that was given before is at fault for that, whatever its value is, -/
theorem Faulty.cause_of_given (h : Faulty shape front (name, form) cause) (given : name ∈ front.map Prod.fst) :
    cause = .duplicateField name := by
  cases h with
  | repeated => rfl
  | unreadable _ _ new _ => exact absurd given new

/-- and any other for its value. -/
theorem Faulty.alone_of_new (h : Faulty shape front (name, form) cause) (new : name ∉ front.map Prod.fst) :
    ∃ field ∈ shape.fields, field.name = name ∧
      ∃ alone, decode field.read (String.ofList form) = .error alone ∧ alone.cause = cause := by
  cases h with
  | repeated _ _ given => exact absurd given new
  | unreadable hf hname _ hread => exact ⟨_, hf, hname, _, hread, rfl⟩

/-- There is one thing wrong with a member. -/
theorem Faulty.unique (hl : shape.Lawful) {cause' : Cause} (h : Faulty shape front (name, form) cause)
    (h' : Faulty shape front (name, form) cause') : cause = cause' := by
  by_cases given : name ∈ front.map Prod.fst
  · rw [h.cause_of_given given, h'.cause_of_given given]
  · obtain ⟨field, hf, hname, alone, hread, rfl⟩ := h.alone_of_new given
    obtain ⟨field', hf', hname', alone', hread', rfl⟩ := h'.alone_of_new given
    obtain rfl := hl.unique hf hf' (hname.trans hname'.symm)
    rw [Except.error.inj (hread.symm.trans hread')]

/-! ## 2. Member by member -/

/-- The names that are remembered are, of the fields, those that were given. -/
def Remembers (shape : Shape σ) (members : List (String × List Char)) (seen : List String) : Prop :=
  ∀ field ∈ shape.fields, field.name ∈ seen ↔ field.name ∈ members.map Prod.fst

theorem remembers_nil : Remembers shape [] [] := fun _ _ => Iff.rfl

/-- What is no field need not be remembered, -/
theorem Remembers.other (h : Remembers shape front seen) (hnone : shape.field? name = none) (form : List Char) :
    Remembers shape (front ++ [(name, form)]) seen := by
  intro field hf
  have hne : field.name ≠ name := Shape.field?_eq_none hnone hf
  rw [h field hf, List.map_append, List.mem_append]
  simp [hne]

/-- and what is one is. -/
theorem Remembers.field (h : Remembers shape front seen) (name : String) (form : List Char) :
    Remembers shape (front ++ [(name, form)]) (name :: seen) := by
  intro field hf
  rw [List.mem_cons, h field hf, List.map_append, List.mem_append]
  simp [or_comm]

/-- **One member** is put into the record and remembered, or it is faulty and refused for that. -/
theorem put_cases (hl : shape.Lawful) (hsteady : ∀ field ∈ shape.fields, Steady field.read)
    (h : Remembers shape front seen) (hform : Wellformed form (.value parts)) (name : String) (record : σ) :
    (∃ state, shape.put name form (record, seen) = .ok state ∧
      Remembers shape (front ++ [(name, form)]) state.2 ∧ ∀ cause, ¬ Faulty shape front (name, form) cause) ∨
    ∃ cause, shape.put name form (record, seen) = .error cause ∧ Faulty shape front (name, form) cause := by
  rw [Shape.put]
  cases hfield : shape.field? name with
  | none =>
    refine .inl ⟨_, rfl, h.other hfield form, fun cause hfault => ?_⟩
    cases hfault with
    | repeated hf hname _ => exact Shape.field?_eq_none hfield hf hname
    | unreadable hf hname _ _ => exact Shape.field?_eq_none hfield hf hname
  | some field =>
    obtain ⟨hf, rfl⟩ := Shape.field?_eq_some hfield
    dsimp only
    by_cases hseen : field.name ∈ seen
    · rw [if_pos hseen]
      exact .inr ⟨_, rfl, .repeated hf rfl ((h field hf).mp hseen)⟩
    · rw [if_neg hseen]
      have hnew : field.name ∉ front.map Prod.fst := fun hin => hseen ((h field hf).mpr hin)
      cases houtcome : outcome field.read form with
      | error cause =>
        obtain ⟨alone, hread, rfl⟩ := (hsteady field hf).decode_ofList_error hform houtcome
        exact .inr ⟨_, rfl, .unreadable hf rfl hnew hread⟩
      | ok x =>
        refine .inl ⟨_, rfl, h.field field.name form, fun cause hfault => ?_⟩
        have hdecode := ((hsteady field hf).decode_ofList_eq_ok_iff hform).mpr houtcome
        cases hfault with
        | repeated _ _ given => exact hnew given
        | unreadable ho hname _ hread =>
          obtain rfl := hl.unique ho hf hname
          rw [hdecode] at hread
          cases hread

/-- The last member of a row is put where the others were. -/
theorem foldlM_put_snoc (front : List (String × List Char)) (member : String × List Char)
    (state : σ × List String) :
    (front ++ [member]).foldlM (fun state member => shape.put member.1 member.2 state) state =
      front.foldlM (fun state member => shape.put member.1 member.2 state) state >>=
        shape.put member.1 member.2 := by
  rw [List.foldlM_append]
  simp only [List.foldlM_cons, List.foldlM_nil, bind_pure]

/-- **A row of members** is put into the record, or it stops at its first fault. -/
theorem foldlM_put_cases (hl : shape.Lawful) (hsteady : ∀ field ∈ shape.fields, Steady field.read)
    (hvalues : ∀ member ∈ members, ∃ parts, Wellformed member.2 (.value parts)) (record : σ) :
    (∃ state, members.foldlM (fun state member => shape.put member.1 member.2 state) (record, []) = .ok state ∧
      Remembers shape members state.2 ∧ Sound shape members) ∨
    ∃ cause, members.foldlM (fun state member => shape.put member.1 member.2 state) (record, []) = .error cause ∧
      ∃ front member, FirstFault shape members front member cause := by
  -- from the end, since what is wrong with a member depends on all those in front of it
  induction members using List.reverseRecOn with
  | nil => exact .inl ⟨_, rfl, remembers_nil, sound_nil⟩
  | append_singleton front member ih =>
    obtain ⟨hfront, hmember⟩ := List.forall_mem_append.mp hvalues
    obtain ⟨parts, hform⟩ := hmember member List.mem_cons_self
    rw [foldlM_put_snoc]
    rcases ih hfront with ⟨state, hfold, hremembers, hsound⟩ | ⟨cause, hfold, other, fault, hfirst⟩
    · rw [hfold]
      rcases put_cases hl hsteady hremembers hform member.1 state.1 with
        ⟨state', hput, hremembers', hnot⟩ | ⟨cause, hput, hfault⟩
      · exact .inl ⟨state', hput, hremembers', hsound.snoc hnot⟩
      · exact .inr ⟨cause, hput, front, member, List.prefix_rfl, hsound, hfault⟩
    · rw [hfold]
      exact .inr ⟨cause, rfl, other, fault, hfirst.append _⟩

/-- **At its first fault the row stops**, and has no other cause. -/
theorem foldlM_put_of_fault (hl : shape.Lawful) (hsteady : ∀ field ∈ shape.fields, Steady field.read)
    (hvalues : ∀ other ∈ front ++ [member], ∃ parts, Wellformed other.2 (.value parts))
    (hsound : Sound shape front) (hfault : Faulty shape front member cause) (record : σ) :
    (front ++ [member]).foldlM (fun state member => shape.put member.1 member.2 state) (record, []) =
      .error cause := by
  obtain ⟨hfront, hmember⟩ := List.forall_mem_append.mp hvalues
  obtain ⟨parts, hform⟩ := hmember member List.mem_cons_self
  rcases foldlM_put_cases hl hsteady hfront record with ⟨state, hfold, hremembers, -⟩ | ⟨_, -, before, other, hfirst⟩
  · rw [foldlM_put_snoc, hfold]
    rcases put_cases hl hsteady hremembers hform member.1 state.1 with ⟨_, -, -, hnot⟩ | ⟨cause', hput, hfault'⟩
    · exact absurd hfault (hnot cause)
    · obtain rfl := hfault'.unique hl hfault
      exact hput
  · -- nothing is wrong in front
    obtain ⟨after, hsplit⟩ := hfirst.begins
    rw [List.append_assoc, List.singleton_append] at hsplit
    exact absurd hfirst.fault (hsound before other after hsplit.symm _)

/-! ## 3. Texts that begin like an object -/

/-- **The text begins like an object** of these members; behind the value of the last one there may be anything
    that does not belong to it. -/
def OpensObject (text : List Char) (members : List (String × List Char)) : Prop :=
  ∃ a inside behind written, text = a ++ '{' :: (inside ++ behind) ∧ Blank a ∧ Bounded behind ∧
    Wellformed inside (.members written) ∧
      List.Forall₂ (fun (key, value) (name, value') => Names key name ∧ value = value') written members

/-- A row is cut behind one of its members, in front of the comma or at its end. -/
theorem Wellformed.cut_members {first : List Char × List Char} {before after : List (List Char × List Char)}
    (h : Wellformed inside (.members (first :: before ++ after))) :
    ∃ upto behind, inside = upto ++ behind ∧ Wellformed upto (.members (first :: before)) ∧
      (behind = [] ∨ ∃ more, behind = ',' :: more) := by
  generalize hsegment : Segment.members (first :: before ++ after) = segment at h
  induction h generalizing first before with
  | @lastMember a key b c form d parts ha hk hb hc h hd =>
    obtain ⟨rfl, hnone⟩ := List.cons.inj (Segment.members.inj hsegment)
    obtain ⟨rfl, -⟩ := List.append_eq_nil_iff.mp hnone
    exact ⟨_, [], (List.append_nil _).symm, .lastMember ha hk hb hc h hd, .inl rfl⟩
  | @moreMembers a key b c form d more parts members ha hk hb hc h hd tail _ ih =>
    obtain ⟨rfl, hrest⟩ := List.cons.inj (Segment.members.inj hsegment)
    cases before with
    | nil =>
      exact ⟨a ++ (key ++ (b ++ ':' :: (c ++ (form ++ d)))), ',' :: more, by simp,
        .lastMember ha hk hb hc h hd, .inr ⟨more, rfl⟩⟩
    | cons second before =>
      obtain ⟨upto, behind, rfl, hupto, hbehind⟩ := ih (congrArg Segment.members hrest)
      exact ⟨_, behind, by simp, .moreMembers ha hk hb hc h hd hupto, hbehind⟩
  | _ => cases hsegment

/-- **An object begins like one** of its first members. -/
theorem ObjectOf.opens (h : ObjectOf text (members ++ front)) (hmembers : members ≠ []) :
    OpensObject text members := by
  obtain ⟨a, form, b, written, rfl, ha, hb, hform, hnames⟩ := h
  -- what is written is cut where the names are
  have hfirst := List.forall₂_take_append _ _ _ hnames
  rw [← List.take_append_drop members.length written] at hform
  generalize written.take members.length = before at hfirst hform
  generalize written.drop members.length = after at hform
  cases hfirst with
  | nil => exact absurd rfl hmembers
  | @cons first name before names hhead hrest =>
    cases hform with
    | @object inside _ hinside =>
      obtain ⟨upto, behind, rfl, hupto, hbehind⟩ := hinside.cut_members
      refine ⟨a, upto, behind ++ '}' :: b, first :: before, by simp, ha, ?_, hupto, .cons hhead hrest⟩
      rcases hbehind with rfl | ⟨more, rfl⟩
      · exact bounded_append blank_nil (.inl (.inr (.inr (.inr rfl)))) b
      · exact bounded_append blank_nil (.inl (.inr (.inl rfl))) (more ++ '}' :: b)

/-! ## 4. Whole texts -/

/-- **An object that is refused has a first fault**, and is refused for it. -/
theorem exists_firstFault (hl : shape.Lawful) (hsteady : ∀ field ∈ shape.fields, Steady field.read)
    {payload : String} (h : ObjectOf payload.toList members) {error : Error}
    (herror : decode shape.read payload = .error error) :
    ∃ front member, FirstFault shape members front member error.cause := by
  have hvalues := h.wellformed
  obtain ⟨a, form, b, written, hpayload, ha, hb, hform, hnames⟩ := h
  have hgather := (steady_shape hsteady).decode_eq hform hpayload ha hb
  rw [herror, (settles_object hsteady hform).outcome_eq, Shape.gather,
    foldlM_putMember hform.quoted_of_mem_object hnames] at hgather
  rcases foldlM_put_cases hl hsteady hvalues shape.blank with ⟨state, hfold, -⟩ | ⟨cause, hfold, hfirst⟩
  · rw [hfold] at hgather
    cases hgather
  · rw [hfold] at hgather
    obtain rfl : error.cause = cause := Except.error.inj hgather
    exact hfirst

/-- **The first fault decides.** A text that begins like an object is refused for the first fault in its members,
    whatever comes behind it. -/
theorem decode_of_firstFault (hl : shape.Lawful) (hsteady : ∀ field ∈ shape.fields, Steady field.read)
    {payload : String} (h : OpensObject payload.toList (front ++ [member])) (hsound : Sound shape front)
    (hfault : Faulty shape front member cause) :
    ∃ error, decode shape.read payload = .error error ∧ error.cause = cause := by
  obtain ⟨a, inside, behind, written, hpayload, ha, hbehind, hinside, hnames⟩ := h
  have hwritten : ∀ member ∈ written, Quoted member.1 ∧ ∃ parts, Wellformed member.2 (.value parts) :=
    fun _ hmem => hinside.quoted_of_mem hmem
  have hfold : written.foldlM shape.putMember (shape.blank, []) = .error cause := by
    rw [foldlM_putMember hwritten hnames]
    exact foldlM_put_of_fault hl hsteady (wellformed_of_names hwritten hnames) hsound hfault shape.blank
  refine decode_of_told ?_
  rw [hpayload, Shape.read, dropBlank_append ha rfl]
  have hcount : written.length ≤ (inside ++ behind).length + 1 := by
    have hle := hinside.length_members_le
    simp only [List.length_append]
    omega
  exact told_readMembers_error hsteady hinside hbehind hcount hfold

end

end LinkPane.Json
