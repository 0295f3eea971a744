import LinkPane.Proofs.Json.Members
import LinkPane.Proofs.Payload.Language

/-!
# Lenient links

What link an item of a payload is, from the members of the item alone:

* `get_set` -- the fields of a link do not disturb each other;
* **`Link.fill_sorted`** -- a map with its keys in order is always a link: there is no fault to fall back from;
* `LenientText` -- the text of a field, by the last member of its name; `LinkOf` -- the link of an item;
* **`linkOf_ofValue`**, `LinkOf.unique` -- every item is its link and no other;
* **`parseLinks_lenient`** -- the same of whole payloads.
-/

namespace LinkPane

open Json

/-! ## 1. Fields -/

/-- Setting a field sets that field and no other. -/
theorem Link.get_set {part other : Link.Part} (hp : part ∈ Link.parts) (ho : other ∈ Link.parts) (s : String)
    (link : Link) : other.get (part.set s link) = if other.name = part.name then s else other.get link := by
  simp only [Link.parts, List.mem_cons, List.not_mem_nil, or_false] at hp ho
  rcases hp with rfl | rfl | rfl <;> rcases ho with rfl | rfl | rfl <;> simp

theorem Link.part?_eq_some {name : String} {part : Link.Part} (h : Link.part? name = some part) :
    part ∈ Link.parts ∧ part.name = name :=
  ⟨List.mem_of_find?_eq_some h, by simpa using List.find?_some h⟩

theorem Link.part?_eq_none {name : String} (h : Link.part? name = none) {part : Link.Part}
    (hp : part ∈ Link.parts) : part.name ≠ name := by
  simpa using List.find?_eq_none.mp h part hp

/-- **A map with its keys in order is always a link**, and its fields are those of the map, or else as they
    were. -/
theorem Link.fill_sorted {map : List (String × Value)} (h : Sorted map) {seen : List String}
    (hseen : ∀ member ∈ map, member.1 ∉ seen) (link : Link) :
    ∃ link', Link.fill seen link map = .ok link' ∧ ∀ part ∈ Link.parts,
      part.get link' = ((map.lookup part.name).map leniently).getD (part.get link) := by
  induction map generalizing seen link with
  | nil => exact ⟨link, rfl, fun _ _ => rfl⟩
  | cons member map ih =>
    obtain ⟨key, value⟩ := member
    obtain ⟨hfirst, hmap⟩ := List.pairwise_cons.mp h
    obtain ⟨hkey, hrest⟩ := List.forall_mem_cons.mp hseen
    rw [Link.fill]
    split
    · rename_i hnone
      obtain ⟨link', hfill, hget⟩ := ih hmap hrest link
      refine ⟨link', hfill, fun part hp => ?_⟩
      rw [hget part hp, lookup_member, if_neg (Link.part?_eq_none hnone hp)]
    · rename_i part hsome
      obtain ⟨hp, hname⟩ := Link.part?_eq_some hsome
      -- the keys behind this one are greater, so none of them is seen a second time
      have hlater : ∀ member ∈ map, member.1 ∉ key :: seen := fun member hmem hin => by
        rcases List.mem_cons.mp hin with heq | hin
        · exact String.lt_irrefl key (heq ▸ hfirst member hmem)
        · exact hrest member hmem hin
      obtain ⟨link', hfill, hget⟩ := ih hmap hlater (part.set (leniently value) link)
      rw [if_neg hkey]
      refine ⟨link', hfill, fun other ho => ?_⟩
      rw [hget other ho, Link.get_set hp ho, lookup_member, hname]
      split
      · rename_i heq
        rw [heq, h.lookup_eq_none]
        rfl
      · rfl

theorem Link.get_empty {part : Link.Part} (hp : part ∈ Link.parts) : part.get Link.empty = "" := by
  simp only [Link.parts, List.mem_cons, List.not_mem_nil, or_false] at hp
  rcases hp with rfl | rfl | rfl <;> rfl

/-- The map of an object is always a link, field by field. -/
theorem Link.ofMap_memberMap (members : List (String × Value)) :
    ∃ link, Link.ofMap (memberMap members) = .ok link ∧ ∀ part ∈ Link.parts,
      part.get link = (((memberMap members).lookup part.name).map leniently).getD "" := by
  have hseen : ∀ member ∈ memberMap members, member.1 ∉ ([] : List String) := fun _ _ => List.not_mem_nil
  obtain ⟨link, hfill, hget⟩ := Link.fill_sorted (memberMap_sorted members) hseen Link.empty
  refine ⟨link, hfill, fun part hp => ?_⟩
  rw [hget part hp, Link.get_empty hp]

/-- The fields of the link that an object is. -/
theorem Link.get_ofValue (members : List (String × Value)) {part : Link.Part} (hp : part ∈ Link.parts) :
    part.get (Link.ofValue (.object members)) = (((memberMap members).lookup part.name).map leniently).getD "" := by
  obtain ⟨link, hlink, hget⟩ := Link.ofMap_memberMap members
  rw [Link.ofValue, hlink]
  exact hget part hp

/-! ## 2. Items -/

/-- The text of a field: that of the last member of its name, where its value is a text. -/
inductive LenientText (members : List (String × Value)) (name : String) : String → Prop
  | text {s : String} (h : LastMember members name (.text s)) : LenientText members name s
  | other {value : Value} (h : LastMember members name value) (hv : ∀ s, value ≠ .text s) :
      LenientText members name ""
  | missing (h : ∀ member ∈ members, member.1 ≠ name) : LenientText members name ""

/-- The link of an item: what is no object has no field. -/
inductive LinkOf : Value → Link → Prop
  | object {members : List (String × Value)} {link : Link} (kind : LenientText members "type" link.kind)
      (source : LenientText members "source" link.source) (target : LenientText members "target" link.target) :
      LinkOf (.object members) link
  | other {item : Value} (h : ∀ members, item ≠ .object members) : LinkOf item .empty

theorem lenientText_iff {members : List (String × Value)} {name s : String} :
    LenientText members name s ↔ s = (((memberMap members).lookup name).map leniently).getD "" := by
  constructor
  · intro h
    cases h with
    | text h => rw [lookup_memberMap_eq_some_iff.mpr h]; rfl
    | @other value h hv =>
      rw [lookup_memberMap_eq_some_iff.mpr h]
      cases value with
      | text s => exact absurd rfl (hv s)
      | _ => rfl
    | missing h => rw [lookup_memberMap_eq_none_iff.mpr h]; rfl
  · rintro rfl
    cases h : (memberMap members).lookup name with
    | none => exact .missing (lookup_memberMap_eq_none_iff.mp h)
    | some value =>
      have hlast := lookup_memberMap_eq_some_iff.mp h
      cases value with
      | text s => exact .text hlast
      | _ => exact .other hlast fun _ heq => by cases heq

/-- **Every item is its link.** -/
theorem linkOf_ofValue (item : Value) : LinkOf item (Link.ofValue item) := by
  cases item with
  | object members =>
    have hget := fun (part : Link.Part) (hp : part ∈ Link.parts) => Link.get_ofValue members hp
    obtain ⟨hkind, hsource, htarget, -⟩ := by simpa only [Link.parts, List.forall_mem_cons] using hget
    exact .object (lenientText_iff.mpr hkind) (lenientText_iff.mpr hsource) (lenientText_iff.mpr htarget)
  | _ => exact .other fun _ heq => by cases heq

theorem LinkOf.unique {item : Value} {link link' : Link} (h : LinkOf item link) (h' : LinkOf item link') :
    link = link' := by
  cases h with
  | object kind source target =>
    cases h' with
    | object kind' source' target' =>
      rw [lenientText_iff] at kind source target kind' source' target'
      cases link
      cases link'
      simp only at kind source target kind' source' target'
      rw [kind, source, target, kind', source', target']
    | other hne => exact absurd rfl (hne _)
  | other hne =>
    cases h' with
    | object => exact absurd rfl (hne _)
    | other => rfl

/-- Members of other names, and all but the last of a name, are passed over. -/
theorem Link.ofValue_congr {members members' : List (String × Value)}
    (h : ∀ part ∈ Link.parts, ∀ value,
      LastMember members part.name value ↔ LastMember members' part.name value) :
    Link.ofValue (.object members) = Link.ofValue (.object members') := by
  have hlookup : ∀ part ∈ Link.parts,
      (memberMap members).lookup part.name = (memberMap members').lookup part.name := fun part hp =>
    Option.ext fun value => by
      rw [lookup_memberMap_eq_some_iff, lookup_memberMap_eq_some_iff, h part hp value]
  obtain ⟨hkind, hsource, htarget, -⟩ := by simpa only [Link.parts, List.forall_mem_cons] using hlookup
  have hlink := linkOf_ofValue (.object members')
  generalize Link.ofValue (.object members') = link at hlink
  refine (linkOf_ofValue (.object members)).unique ?_
  cases hlink with
  | object kind source target =>
    rw [lenientText_iff] at kind source target
    refine .object (lenientText_iff.mpr ?_) (lenientText_iff.mpr ?_) (lenientText_iff.mpr ?_)
    · rw [hkind, kind]
    · rw [hsource, source]
    · rw [htarget, target]
  | other hne => exact absurd rfl (hne _)

/-! ## 3. Payloads -/

/-- **Lenient decoding**: a text of a list gives a link for each item, which is the link of that item whatever
    the other items are; an object is a link without a fault, and nothing but its last members of the three
    names has a part in it. -/
theorem parseLinks_lenient {payload : String} {items : List Value}
    (h : IsText depthLimit payload.toList (.list items)) :
    ∃ links, parseLinks payload = .ok links ∧ links.length = items.length ∧
      (∀ (i : Nat) item, items[i]? = some item → ∀ link, links[i]? = some link ↔ LinkOf item link) ∧
      (∀ (i : Nat) members, items[i]? = some (.object members) →
        ∃ link, Link.ofMap (memberMap members) = .ok link ∧ links[i]? = some link) ∧
      ∀ (i : Nat) members members', items[i]? = some (.object members) →
        (∀ part ∈ Link.parts, ∀ value,
          LastMember members part.name value ↔ LastMember members' part.name value) →
        links[i]? = some (Link.ofValue (.object members')) := by
  have hget : ∀ (i : Nat) item, items[i]? = some item →
      (items.map Link.ofValue)[i]? = some (Link.ofValue item) := fun i item hitem => by
    rw [List.getElem?_map, hitem, Option.map_some]
  refine ⟨items.map Link.ofValue, parseLinks_eq_ok_iff.mpr ⟨items, h, rfl⟩, List.length_map _, ?_, ?_, ?_⟩
  · intro i item hitem link
    rw [hget i item hitem, Option.some.injEq]
    exact ⟨fun heq => heq ▸ linkOf_ofValue item, (linkOf_ofValue item).unique⟩
  · intro i members hitem
    obtain ⟨link, hlink, -⟩ := Link.ofMap_memberMap members
    exact ⟨link, hlink, by rw [hget i _ hitem, Link.ofValue, hlink]⟩
  · intro i members members' hitem hlast
    rw [hget i _ hitem, Link.ofValue_congr hlast]

/-- A text that is followed by a number of the same name is lost; the other fields are missing. -/
theorem parseLinks_lenient_duplicate :
    IsText depthLimit "[\x7b\"type\":\"a\",\"type\":1\x7d]".toList
      (.list [.object [("type", .text "a"), ("type", .number (.integer 1))]]) ∧
    parseLinks "[\x7b\"type\":\"a\",\"type\":1\x7d]" = .ok [.empty] := by
  have h : IsText depthLimit "[\x7b\"type\":\"a\",\"type\":1\x7d]".toList
      (.list [.object [("type", .text "a"), ("type", .number (.integer 1))]]) := by
    rw [String.toList_ofList]
    exact isText_of_readAll rfl
  refine ⟨h, ?_⟩
  obtain ⟨links, hparse, hlength, hlink, -⟩ := parseLinks_lenient h
  have hkind : LenientText [("type", .text "a"), ("type", .number (.integer 1))] "type" "" :=
    .other ⟨[("type", .text "a")], [], rfl, by simp⟩ fun _ heq => by cases heq
  have hfirst : links[0]? = some .empty :=
    (hlink 0 _ rfl .empty).mpr (.object hkind (.missing (by simp)) (.missing (by simp)))
  obtain ⟨link, rfl⟩ := List.length_eq_one_iff.mp hlength
  rw [List.getElem?_cons_zero] at hfirst
  rw [hparse, Option.some.inj hfirst]

end LinkPane
