import LinkPane.Proofs.Json.Inside
import LinkPane.Proofs.Json.Repeated
import LinkPane.Proofs.Payload.Lenient

/-!
# A link, decoded in two ways

A link is decoded from the text of an object, and also from the value of that text, as the only item of a
payload. The two agree but for what only one of them looks at:

* `Link.lawful`, `Link.steady` -- a link is its fields, and each is read by a steady reader;
* `IsObject` -- a text is an object, with blanks around it;
* `parseLinks_bracketed` -- a payload of one value is a link, or is refused for one of four causes;
* `described_ofValue` -- members that are distinct describe the link of their values;
* **`decode_of_parseLinks`** -- what becomes of the object where the payload is good;
* **`parseLinks_bracketed_object`** -- both directions.
-/

namespace LinkPane

open Json

/-! ## 1. Links as a record type -/

theorem Link.lawful : Link.shape.Lawful := by
  refine ⟨?_, ?_, ?_⟩
  · simp [Link.shape, Link.parts, Link.Part.toField]
  · simp [Link.shape, Link.parts, Link.Part.toField, Field.Apart]
  · intro link link' h
    simp only [Link.shape, Link.parts, List.map_cons, List.map_nil, List.forall_mem_cons] at h
    obtain ⟨hkind, hsource, htarget, -⟩ := h
    cases link
    cases link'
    simp_all [Link.Part.toField]

/-- A field is read as the value in it, and then taken leniently. -/
theorem settles_readLeniently {form : List Char} {parts : Parts} (h : Wellformed form (.value parts)) :
    Settles readLeniently form ((outcome (readValue (depthLimit - 1)) form).map leniently) := by
  intro a rest ha hrest
  rw [readLeniently, told_map, steady_readValue _ form parts h a rest ha hrest, map_map, map_map]

theorem steady_readLeniently : Steady readLeniently :=
  steady_of_settles fun _ _ h => ⟨_, settles_readLeniently h⟩

theorem Link.steady : ∀ field ∈ Link.shape.fields, Steady field.read := by
  intro field hf
  obtain ⟨part, -, rfl⟩ := List.mem_map.mp hf
  exact steady_readLeniently

/-- What is derived with less room is read as a field. -/
theorem outcome_readLeniently {room : Nat} {form : List Char} {v : Value} (hf : Form room form (.value v))
    (hroom : room ≤ depthLimit - 1) : outcome readLeniently form = .ok (leniently v) := by
  obtain ⟨parts, h⟩ := hf.written
  rw [(settles_readLeniently h).outcome_eq, (hf.mono hroom).outcome_eq]
  rfl

/-! ## 2. One value in a payload -/

/-- A text is one object, with blanks around it. -/
def IsObject (text : List Char) : Prop :=
  ∃ a form b written, text = a ++ (form ++ b) ∧ Blank a ∧ Blank b ∧ Wellformed form (.value (.object written))

/-- The payload that has the text for its only item. -/
def bracketed (payload : String) : String :=
  "[" ++ payload ++ "]"

section

variable {payload : String} {a form b : List Char} {parts : Parts}

theorem toList_bracketed (payload : String) : (bracketed payload).toList = '[' :: (payload.toList ++ [']']) := by
  simp [bracketed]

/-- **A payload of one value** is the link of that value, or is refused for one of the four causes. -/
theorem parseLinks_bracketed (hpayload : payload.toList = a ++ (form ++ b)) (ha : Blank a) (hb : Blank b)
    (h : Wellformed form (.value parts)) :
    (∃ v, Form (depthLimit - 1) form (.value v) ∧ parseLinks (bracketed payload) = .ok [Link.ofValue v]) ∨
    ∃ error, parseLinks (bracketed payload) = .error (.unreadable error) ∧ error.cause.isStrict = true := by
  have hlist : Wellformed ('[' :: (payload.toList ++ [']'])) (.value (.list [form])) := by
    rw [hpayload]
    exact .list (.lastItem ha h hb)
  have htext : (bracketed payload).toList = [] ++ (('[' :: (payload.toList ++ [']'])) ++ []) := by
    rw [toList_bracketed, List.append_nil, List.nil_append]
  cases hdecode : decode (readValue depthLimit) (bracketed payload) with
  | ok value =>
    have hf := Form.of_isText (decode_eq_ok_iff.mp hdecode) hlist htext blank_nil blank_nil
    obtain ⟨room, items, hroom, rfl, hitems⟩ := hf.of_list hlist
    obtain rfl : room = depthLimit - 1 := by omega
    cases hitems with
    | @cons _ v _ _ hform hnone =>
      cases hnone
      exact .inl ⟨v, hform, by rw [parseLinks, hdecode]; rfl⟩
  | error error =>
    have hcause := (steady_readValue depthLimit).decode_eq hlist htext blank_nil blank_nil
    rw [hdecode] at hcause
    exact .inr ⟨error, by rw [parseLinks, hdecode], isStrict_of_readValue hlist hcause.symm⟩

end

/-! ## 3. Members and their values -/

section

variable {room : Nat} {form : List Char} {named : List (String × Value)} {members : List (String × List Char)}

/-- Where the members are distinct the value of a field is that of the last member of its name, for there is no
    other one. -/
theorem lastMember_of_mem (h : List.Forall₂ (Valued room) named members)
    (hdistinct : ((Link.shape.known members).map Prod.fst).Nodup) {field : Json.Field Link}
    (hf : field ∈ Link.shape.fields) (hmem : (field.name, form) ∈ members) :
    ∃ v, Form room form (.value v) ∧ LastMember named field.name v := by
  obtain ⟨front, back, rfl⟩ := List.append_of_mem hmem
  have hfront := List.forall₂_take_append _ _ _ h
  have hback := List.forall₂_drop_append _ _ _ h
  obtain ⟨⟨name, v⟩, named', ⟨hname, hform⟩, hlater, hdrop⟩ := List.forall₂_cons_right_iff.mp hback
  obtain rfl : name = field.name := hname
  refine ⟨v, hform, named.take front.length, named', ?_, fun member hmember heq => ?_⟩
  · rw [← hdrop, List.take_append_drop]
  · have hin : field.name ∈ back.map Prod.fst := by
      rw [← names_eq hlater]
      exact List.mem_map.mpr ⟨member, hmember, heq⟩
    obtain ⟨other, hother, hsame⟩ := List.mem_map.mp hin
    exact ne_of_mem_later hf hdistinct other hother hsame

/-- **Members that are distinct describe the link of their values.** -/
theorem described_ofValue (h : List.Forall₂ (Valued room) named members) (hroom : room ≤ depthLimit - 1)
    (hdistinct : ((Link.shape.known members).map Prod.fst).Nodup) :
    Described Link.shape members (Link.ofValue (.object named)) := by
  refine ⟨hdistinct, fun field hf form hmem => ?_, fun field hf hmissing => ?_⟩
  · obtain ⟨part, hp, rfl⟩ := List.mem_map.mp hf
    obtain ⟨v, hform, hlast⟩ : ∃ v, Form room form (.value v) ∧ LastMember named part.name v :=
      lastMember_of_mem h hdistinct hf hmem
    obtain ⟨parts, hwritten⟩ := hform.written
    have hget : part.get (Link.ofValue (.object named)) = leniently v := by
      rw [Link.get_ofValue named hp, lookup_memberMap_eq_some_iff.mpr hlast]
      rfl
    exact (steady_readLeniently.decode_ofList_eq_ok_iff hwritten).mpr
      ((outcome_readLeniently hform hroom).trans (congrArg Except.ok hget.symm))
  · obtain ⟨part, hp, rfl⟩ := List.mem_map.mp hf
    have hnone : ∀ member ∈ named, member.1 ≠ part.name := fun member hmem heq => by
      have hname : part.name ∈ members.map Prod.fst := by
        rw [← names_eq h]
        exact List.mem_map.mpr ⟨member, hmem, heq⟩
      obtain ⟨other, hother, hsame⟩ := List.mem_map.mp hname
      exact hmissing other hother hsame
    have hget : part.get (Link.ofValue (.object named)) = "" := by
      rw [Link.get_ofValue named hp, lookup_memberMap_eq_none_iff.mpr hnone]
      rfl
    exact hget.trans (Link.get_empty hp).symm

/-- Every field that is given has a value. -/
theorem exists_outcome (h : List.Forall₂ (Valued room) named members) (hroom : room ≤ depthLimit - 1) :
    ∀ field ∈ Link.shape.fields, ∀ form, (field.name, form) ∈ members → ∃ x, outcome field.read form = .ok x := by
  intro field hf form hmem
  obtain ⟨part, -, rfl⟩ := List.mem_map.mp hf
  obtain ⟨v, hform⟩ := exists_form_of_mem h hmem
  exact ⟨_, outcome_readLeniently hform hroom⟩

end

/-! ## 4. Both ways -/

section

variable {payload : String} {members : List (String × List Char)}

/-- **What becomes of the object** where the payload of it is good: it is the same link if no field is given
    twice, and is refused at the first field that is given again otherwise. -/
theorem decode_of_parseLinks {links : List Link} (h : ObjectOf payload.toList members)
    (hparse : parseLinks (bracketed payload) = .ok links) :
    ∃ link, links = [link] ∧
      (((Link.shape.known members).map Prod.fst).Nodup → decode Link.shape.read payload = .ok link) ∧
      (¬ ((Link.shape.known members).map Prod.fst).Nodup → ∃ name, Link.shape.Repeats members name ∧
        ∃ error, decode Link.shape.read payload = .error error ∧ error.cause = .duplicateField name) := by
  obtain ⟨a, form, b, written, hpayload, ha, hb, hform, hnames⟩ := id h
  rcases parseLinks_bracketed hpayload ha hb hform with ⟨v, hv, hlink⟩ | ⟨error, herror, -⟩
  · obtain ⟨room, named, hroom, rfl, hderives⟩ := hv.of_object hform
    have hless : room ≤ depthLimit - 1 := by omega
    have hvalued : List.Forall₂ (Valued room) named members :=
      valued_of_derives (fun member hmem => (hform.quoted_of_mem_object member hmem).1) hnames hderives
    rw [hlink] at hparse
    refine ⟨_, (Except.ok.inj hparse).symm, fun hdistinct => ?_, fun hrepeated => ?_⟩
    · exact (decode_object_iff Link.lawful Link.steady h).mpr (described_ofValue hvalued hless hdistinct)
    · obtain ⟨name, hrepeats⟩ := exists_repeats hrepeated
      exact ⟨name, hrepeats, decode_repeats Link.lawful Link.steady h (exists_outcome hvalued hless) hrepeats⟩
  · rw [herror] at hparse
    cases hparse

/-- A good payload has keys with names. -/
theorem exists_objectOf {links : List Link} (h : IsObject payload.toList)
    (hparse : parseLinks (bracketed payload) = .ok links) : ∃ members, ObjectOf payload.toList members := by
  obtain ⟨a, form, b, written, hpayload, ha, hb, hform⟩ := h
  rcases parseLinks_bracketed hpayload ha hb hform with ⟨v, hv, -⟩ | ⟨error, herror, -⟩
  · obtain ⟨room, named, -, -, hderives⟩ := hv.of_object hform
    obtain ⟨members, hnames⟩ := exists_names hderives
    exact ⟨members, a, form, b, written, hpayload, ha, hb, hform, hnames⟩
  · rw [herror] at hparse
    cases hparse

/-- The four causes by their wording. -/
def strictMessages : List String :=
  ["number out of range", "recursion limit exceeded", "lone leading surrogate in hex escape",
    "unexpected end of hex escape"]

theorem message_mem_of_isStrict {cause : Cause} (h : cause.isStrict = true) : cause.message ∈ strictMessages := by
  cases cause with
  | numberOutOfRange => exact List.mem_cons_self
  | tooDeep => exact List.mem_cons_of_mem _ List.mem_cons_self
  | loneSurrogate => exact List.mem_cons_of_mem _ (List.mem_cons_of_mem _ List.mem_cons_self)
  | endOfPair =>
    exact List.mem_cons_of_mem _ (List.mem_cons_of_mem _ (List.mem_cons_of_mem _ List.mem_cons_self))
  | _ => cases h

/-- **The two ways to decode a link agree.** Where the payload of one object is good, it is one link; the object
    itself decodes to that link if no field is given twice, and otherwise is refused at the first field that is
    given again. The other way round, an object that decodes to a link is the payload of that link alone, or one
    that is refused at a place for one of four causes. -/
theorem parseLinks_bracketed_object (h : IsObject payload.toList) :
    (∀ links, parseLinks (bracketed payload) = .ok links →
      ∃ link, links = [link] ∧ (∃ members, ObjectOf payload.toList members) ∧
        ∀ members, ObjectOf payload.toList members →
          (((Link.shape.known members).map Prod.fst).Nodup → decode Link.shape.read payload = .ok link) ∧
          (¬ ((Link.shape.known members).map Prod.fst).Nodup → ∃ name, Link.shape.Repeats members name ∧
            ∃ error, decode Link.shape.read payload = .error error ∧ error.cause = .duplicateField name)) ∧
    ∀ link, decode Link.shape.read payload = .ok link →
      parseLinks (bracketed payload) = .ok [link] ∨
      ∃ error, parseLinks (bracketed payload) = .error (.unreadable error) ∧
        error.cause.message ∈ strictMessages := by
  constructor
  · intro links hparse
    obtain ⟨members, hmembers⟩ := exists_objectOf h hparse
    obtain ⟨link, rfl, -⟩ := decode_of_parseLinks hmembers hparse
    refine ⟨link, rfl, ⟨members, hmembers⟩, fun members' h' => ?_⟩
    obtain ⟨link', hlink, hdistinct, hrepeated⟩ := decode_of_parseLinks h' hparse
    obtain rfl := (List.cons.inj hlink).1
    exact ⟨hdistinct, hrepeated⟩
  · intro link hdecode
    obtain ⟨a, form, b, written, hpayload, ha, hb, hform⟩ := id h
    rcases parseLinks_bracketed hpayload ha hb hform with ⟨v, -, hparse⟩ | ⟨error, herror, hstrict⟩
    · obtain ⟨members, hmembers⟩ := exists_objectOf h hparse
      obtain ⟨link', hlink, hgood, hrepeated⟩ := decode_of_parseLinks hmembers hparse
      by_cases hdistinct : ((Link.shape.known members).map Prod.fst).Nodup
      · obtain rfl : link' = link := Except.ok.inj ((hgood hdistinct).symm.trans hdecode)
        exact .inl (hparse.trans (congrArg Except.ok hlink))
      · obtain ⟨name, -, error, herror, -⟩ := hrepeated hdistinct
        rw [hdecode] at herror
        cases herror
    · exact .inr ⟨error, herror, message_mem_of_isStrict hstrict⟩

end

/-- A kind that is given twice, and is no text either time: the payload is the empty link, and the object is
    refused. -/
theorem parseLinks_bracketed_object_repeated :
    let payload := "\x7b\"type\":null,\"type\":true\x7d"
    IsObject payload.toList ∧ parseLinks (bracketed payload) = .ok [.empty] ∧
      ∃ error, decode Link.shape.read payload = .error error ∧ error.cause = .duplicateField "type" := by
  intro payload
  have hwritten : ObjectOf (writeObject [("type", ['n', 'u', 'l', 'l']), ("type", ['t', 'r', 'u', 'e'])])
      [("type", ['n', 'u', 'l', 'l']), ("type", ['t', 'r', 'u', 'e'])] := by
    refine objectOf_writeObject ?_
    simp only [List.forall_mem_cons]
    exact ⟨⟨_, .null⟩, ⟨_, .yes⟩, fun _ hmem => absurd hmem List.not_mem_nil⟩
  have htext : payload.toList = writeObject [("type", ['n', 'u', 'l', 'l']), ("type", ['t', 'r', 'u', 'e'])] := by
    simp only [payload]
    rw [String.toList_ofList]
    rfl
  have hmembers := htext ▸ hwritten
  have h : IsObject payload.toList := by
    obtain ⟨a, form, b, written, hform, ha, hb, hobject, -⟩ := hmembers
    exact ⟨a, form, b, written, hform, ha, hb, hobject⟩
  have hparse : parseLinks (bracketed payload) = .ok [.empty] := by
    rw [parseLinks, decode, toList_bracketed, htext]
    rfl
  refine ⟨h, hparse, ?_⟩
  obtain ⟨link, -, -, hall⟩ := (parseLinks_bracketed_object h).1 _ hparse
  obtain ⟨name, ⟨front, form, back, hsplit, -, -⟩, error, herror, hcause⟩ := (hall _ hmembers).2 (by
    simp [Shape.known, Shape.field?, Link.shape, Link.parts, Link.Part.toField])
  have hmem : (name, form) ∈ [("type", ['n', 'u', 'l', 'l']), ("type", ['t', 'r', 'u', 'e'])] :=
    hsplit ▸ List.mem_append_right front List.mem_cons_self
  have hname : name = "type" := by
    simp only [List.mem_cons, Prod.mk.injEq, List.not_mem_nil, or_false] at hmem
    exact hmem.elim And.left And.left
  exact ⟨error, herror, hname ▸ hcause⟩

end LinkPane
