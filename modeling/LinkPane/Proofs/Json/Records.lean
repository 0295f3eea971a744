import LinkPane.Json.Record
import LinkPane.Proofs.Json.Settling

/-!
# Reading records

A record is read part by part: from the members of an object or the items of a list as they are written, each
with the outcome that its text has alone.

* `Shape.put`, `Shape.gather` -- the record of the members of an object;
* `fillRow` -- the record of the items of a list;
* **`told_readMembers_row`**, **`told_readItems`** -- the reader follows them, by induction on the derivation of
  what is inside the brackets; `told_readMembers`, `told_readMembers_error` -- up to the closing bracket, and where
  a member is refused;
* **`settles_object`**, **`settles_list`** -- so a record is what its parts make it, wherever it stands;
* **`steady_shape`** -- the reader of a record is steady if those of its fields are.
-/

namespace LinkPane.Json

/-! ## 1. Part by part -/

section

variable {σ : Type}

/-- Puts the member `name` into a record; the names seen so far are kept beside it. A member that is no field is
    passed over. -/
def Shape.put (shape : Shape σ) (name : String) (form : List Char) (state : σ × List String) :
    Except Cause (σ × List String) :=
  match shape.field? name with
  | none => .ok state
  | some field =>
    if name ∈ state.2 then .error (.duplicateField name)
    else (outcome field.read form).map fun x => (field.set x state.1, name :: state.2)

/-- Puts a member with its key as it is written. -/
def Shape.putMember (shape : Shape σ) (state : σ × List String) (member : List Char × List Char) :
    Except Cause (σ × List String) :=
  outcome readText member.1 >>= fun name => shape.put name member.2 state

/-- The record of the members of an object, as they are written. -/
def Shape.gather (shape : Shape σ) (members : List (List Char × List Char)) : Except Cause σ :=
  (members.foldlM shape.putMember (shape.blank, [])).map Prod.fst

/-- A record with items for its fields, in their order. -/
def fillRow : List (Field σ) → σ → List (List Char) → Except Cause σ
  | _, record, [] => .ok record
  | [], _, _ :: _ => .error .trailingCharacters
  | field :: fields, record, form :: forms =>
    outcome field.read form >>= fun x => fillRow fields (field.set x record) forms

@[simp] theorem fillRow_nil (fields : List (Field σ)) (record : σ) : fillRow fields record [] = .ok record := by
  cases fields <;> rfl

variable {shape : Shape σ} {fields : List (Field σ)} {field : Field σ} {record : σ} {seen : List String}
  {a b c d key form inside tail : List Char} {parts : Parts} {members : List (List Char × List Char)}
  {items : List (List Char)}

theorem told_fill (field : Field σ) (record : σ) (text : List Char) :
    told (field.fill record text) = (told (field.read text)).map fun (x, rest) => (field.set x record, rest) :=
  told_map _ _

/-! ## 2. Members -/

/-- Before the first member of a row there is its key. -/
theorem Wellformed.dropBlank_members (h : Wellformed inside (.members members)) (rest : List Char) :
    ∃ more, dropBlank (inside ++ rest) = '"' :: more := by
  cases h with
  | lastMember ha hk _ _ _ _ =>
    obtain ⟨_⟩ := hk
    exact ⟨_, by rw [List.append_assoc]; exact dropBlank_append ha rfl _⟩
  | moreMembers ha hk _ _ _ _ _ =>
    obtain ⟨_⟩ := hk
    exact ⟨_, by rw [List.append_assoc]; exact dropBlank_append ha rfl _⟩

/-- A row has fewer members than characters. -/
theorem Wellformed.length_members_le (h : Wellformed inside (.members members)) :
    members.length ≤ inside.length := by
  generalize hsegment : Segment.members members = segment at h
  induction h generalizing members with
  | lastMember =>
    cases hsegment
    simp only [List.length_append, List.length_cons, List.length_nil]
    omega
  | moreMembers _ _ _ _ _ _ _ _ ih =>
    cases hsegment
    have htail := ih rfl
    simp only [List.length_append, List.length_cons]
    omega
  | _ => cases hsegment

/-- The first key of an object is read where it begins. -/
theorem readKey?_first {text more : List Char} (h : dropBlank text = '"' :: more) :
    readKey? true text = (readText ('"' :: more)).map fun (name, rest) => (some name, rest) := by
  rw [readKey?, h]
  rfl

/-- Behind a comma a key is read like the first one. -/
theorem readKey?_comma (hd : Blank d) {text more : List Char} (h : dropBlank text = '"' :: more) :
    readKey? false (d ++ ',' :: text) = readKey? true text := by
  have hdrop : dropBlank (d ++ ',' :: text) = ',' :: text := dropBlank_append hd rfl text
  rw [readKey?_first h]
  simp [readKey?, readKey, hdrop, h]

theorem told_readKey? (ha : Blank a) (hk : Quoted key) (hrest : Bounded tail) :
    told (readKey? true (a ++ (key ++ tail))) = (outcome readText key).map fun name => (some name, tail) := by
  have hdrop := hk.wellformed.dropBlank_eq ha tail
  have htext := (steady_readText key .scalar hk.wellformed).front hrest
  obtain ⟨hsigns⟩ := hk
  rw [List.cons_append] at hdrop htext ⊢
  rw [readKey?_first hdrop, told_map, htext, map_map]

/-- The value of a member is put into the record, and what is behind it is left. -/
theorem told_readMember (hfields : ∀ field ∈ shape.fields, Steady field.read) (name : String) (hb : Blank b)
    (hc : Blank c) (h : Wellformed form (.value parts)) (ht : Bounded tail) :
    told (shape.readMember name seen record (b ++ ':' :: (c ++ (form ++ tail)))) =
      (shape.put name form (record, seen)).map fun state => (state, tail) := by
  rw [Shape.readMember, Shape.put]
  cases hfield : shape.field? name with
  | none =>
    have hskip := told_eq_ok_iff.mp (settles_skipValue h c tail hc ht)
    dsimp only
    rw [readColon_append hb]
    show told (skipValue (c ++ (form ++ tail)) >>= fun p => .ok ((record, seen), p.2)) = _
    rw [hskip]
    rfl
  | some field =>
    dsimp only
    by_cases hseen : name ∈ seen
    · rw [if_pos hseen, if_pos hseen]
      rfl
    · have hread := hfields field (List.mem_of_find?_eq_some hfield) form parts h c tail hc ht
      rw [if_neg hseen, if_neg hseen, readColon_append hb]
      show told (field.fill record (c ++ (form ++ tail)) >>= fun p => .ok ((p.1, name :: seen), p.2)) = _
      rw [told_bind, told_fill, hread, map_map, map_bind, map_map]
      rfl

/-- The first member of those that are left. -/
theorem told_readMembers_member (hfields : ∀ field ∈ shape.fields, Steady field.read) (ha : Blank a)
    (hk : Quoted key) (hb : Blank b) (hc : Blank c) (h : Wellformed form (.value parts)) (ht : Bounded tail)
    (record : σ) (seen : List String) (count : Nat) :
    told (shape.readMembers (count + 1) true seen record
        (a ++ (key ++ (b ++ ':' :: (c ++ (form ++ tail)))))) =
      shape.putMember (record, seen) (key, form) >>= fun state =>
        told (shape.readMembers count false state.2 state.1 tail) := by
  have hkey := told_readKey? ha hk (bounded_append hb (.inr rfl) (c ++ (form ++ tail)))
  rw [Shape.readMembers, told_bind, hkey, map_bind, Shape.putMember, bind_assoc]
  congr 1
  funext name
  dsimp only
  rw [told_bind, told_readMember hfields name hb hc h ht, map_bind]

/-- Behind a comma the next member is read like the first one. -/
theorem readMembers_comma (hd : Blank d) {text more : List Char} (htext : dropBlank text = '"' :: more)
    (count : Nat) :
    shape.readMembers count false seen record (d ++ ',' :: text) =
      shape.readMembers count true seen record text := by
  cases count with
  | zero => rfl
  | succ count => rw [Shape.readMembers, Shape.readMembers, readKey?_comma hd htext]

/-- At the closing bracket the record is complete. -/
theorem readMembers_close (hd : Blank d) (first : Bool) (count : Nat) (rest : List Char) :
    shape.readMembers (count + 1) first seen record (d ++ '}' :: rest) = .ok (record, rest) := by
  have hkey : readKey? first (d ++ '}' :: rest) = .ok (none, rest) := by
    rw [readKey?, dropBlank_append hd rfl]
    rfl
  rw [Shape.readMembers, hkey]
  rfl

/-- **A row of members is read member by member**, and then what comes behind it; there may be blanks in between. -/
theorem told_readMembers_row (hfields : ∀ field ∈ shape.fields, Steady field.read)
    (h : Wellformed inside (.members members)) :
    ∃ d, Blank d ∧ ∀ record seen count tail, Bounded tail →
      told (shape.readMembers (members.length + count) true seen record (inside ++ tail)) =
        members.foldlM shape.putMember (record, seen) >>= fun state =>
          told (shape.readMembers count false state.2 state.1 (d ++ tail)) := by
  generalize hsegment : Segment.members members = segment at h
  induction h generalizing members with
  | @lastMember a key b c form d parts ha hk hb hc h hd =>
    cases hsegment
    refine ⟨d, hd, fun record seen count tail ht => ?_⟩
    have hmember := told_readMembers_member hfields ha hk hb hc h (ht.blank_append hd) record seen count
    simp only [List.append_assoc, List.cons_append, List.foldlM_cons, List.foldlM_nil, List.length_singleton,
      Nat.add_comm 1 count, hmember, bind_pure]
  | @moreMembers a key b c form d more parts members ha hk hb hc h hd tail _ ih =>
    cases hsegment
    obtain ⟨e, he, hrow⟩ := ih rfl
    refine ⟨e, he, fun record seen count rest ht => ?_⟩
    have hbounded : Bounded (d ++ ',' :: (more ++ rest)) := bounded_append hd (.inl (.inr (.inl rfl))) _
    have hmember := told_readMembers_member hfields ha hk hb hc h hbounded record seen (members.length + count)
    obtain ⟨_, hnext⟩ := tail.dropBlank_members rest
    simp only [List.append_assoc, List.cons_append, List.foldlM_cons, List.length_cons,
      Nat.add_right_comm _ 1 count, hmember, readMembers_comma hd hnext, bind_assoc]
    congr 1
    funext state
    exact hrow state.1 state.2 count rest ht
  | _ => cases hsegment

/-- Members between brackets are the record that they are put into. -/
theorem told_readMembers (hfields : ∀ field ∈ shape.fields, Steady field.read)
    (h : Wellformed inside (.members members)) (rest : List Char) {count : Nat}
    (hcount : members.length < count) :
    told (shape.readMembers count true seen record (inside ++ '}' :: rest)) =
      (members.foldlM shape.putMember (record, seen)).map fun state => (state.1, rest) := by
  obtain ⟨d, hd, hrow⟩ := told_readMembers_row hfields h
  obtain ⟨left, rfl⟩ : ∃ left, count = members.length + (left + 1) := ⟨count - members.length - 1, by omega⟩
  have hbounded : Bounded ('}' :: rest) := bounded_append blank_nil (.inl (.inr (.inr (.inr rfl)))) rest
  rw [hrow record seen (left + 1) _ hbounded]
  simp only [readMembers_close hd]
  cases members.foldlM shape.putMember (record, seen) <;> rfl

/-- Members that cannot all be put into the record are refused for the first of those, whatever is behind them. -/
theorem told_readMembers_error (hfields : ∀ field ∈ shape.fields, Steady field.read)
    (h : Wellformed inside (.members members)) (ht : Bounded tail) {count : Nat} (hcount : members.length ≤ count)
    {cause : Cause} (herror : members.foldlM shape.putMember (record, seen) = .error cause) :
    told (shape.readMembers count true seen record (inside ++ tail)) = .error cause := by
  obtain ⟨d, -, hrow⟩ := told_readMembers_row hfields h
  obtain ⟨left, rfl⟩ : ∃ left, count = members.length + left := ⟨count - members.length, by omega⟩
  rw [hrow record seen left tail ht, herror]
  rfl

/-! ## 3. Items -/

theorem readItems_nil (record : σ) (first : Bool) (text : List Char) :
    readItems record first [] text = (readListEnd text).map fun ((), rest) => (record, rest) := rfl

theorem readItems_cons (field : Field σ) (fields : List (Field σ)) (record : σ) (first : Bool)
    (text : List Char) :
    readItems record first (field :: fields) text = readItemStart first text >>= fun (more, rest) =>
      if more then field.fill record rest >>= fun (record, rest) => readItems record false fields rest
      else .ok (record, rest) := rfl

/-- Where an item begins there is neither a bracket nor a comma. -/
theorem Wellformed.dropBlank_item (h : Wellformed form (.value parts)) (ha : Blank a) (rest : List Char) :
    ∃ c more, dropBlank (a ++ (form ++ rest)) = c :: more ∧ c :: more = form ++ rest ∧ c ≠ ']' ∧ c ≠ ',' := by
  have hdrop := h.dropBlank_eq ha rest
  obtain ⟨c, more, rfl, hc⟩ := h.starts
  exact ⟨c, more ++ rest, hdrop, rfl, hc.ne (by simp), hc.ne (by simp)⟩

theorem readItemStart_first {c : Char} {text more : List Char} (h : dropBlank text = c :: more)
    (hclose : c ≠ ']') : readItemStart true text = .ok (true, c :: more) := by
  rw [readItemStart, h]
  split
  · rename_i heq
    cases heq
  · rename_i heq
    exact absurd (List.cons.inj heq).1 hclose
  · rename_i heq
    cases heq
    rfl

/-- Behind a comma an item is found like the first one. -/
theorem readItemStart_comma (hb : Blank b) {c : Char} {text more : List Char} (h : dropBlank text = c :: more)
    (hclose : c ≠ ']') : readItemStart false (b ++ ',' :: text) = readItemStart true text := by
  have hdrop : dropBlank (b ++ ',' :: text) = ',' :: text := dropBlank_append hb rfl text
  rw [readItemStart_first h hclose]
  simp [readItemStart, hdrop, h, hclose]

/-- A list must not be longer than the record, -/
theorem told_readListEnd {c : Char} {text more : List Char} (h : dropBlank text = c :: more)
    (hclose : c ≠ ']') (hcomma : c ≠ ',') : told (readListEnd text) = .error .trailingCharacters := by
  unfold readListEnd
  rw [h]
  split
  · rename_i heq
    cases heq
  · rename_i heq
    exact absurd (List.cons.inj heq).1 hclose
  · rename_i heq
    exact absurd (List.cons.inj heq).1 hcomma
  · rfl

/-- whether the item too many is the first or comes behind a comma. -/
theorem told_readListEnd_comma (hb : Blank b) {c : Char} {text more : List Char}
    (h : dropBlank text = c :: more) (hclose : c ≠ ']') :
    told (readListEnd (b ++ ',' :: text)) = .error .trailingCharacters := by
  have hdrop : dropBlank (b ++ ',' :: text) = ',' :: text := dropBlank_append hb rfl text
  simp only [readListEnd, hdrop, h]
  split
  · rename_i heq
    exact absurd (List.cons.inj heq).1 hclose
  · rfl

/-- The first item of those that are left is for the first field. -/
theorem told_readItems_item (hfield : Steady field.read) (ha : Blank a) (h : Wellformed form (.value parts))
    (ht : Bounded tail) (record : σ) (fields : List (Field σ)) :
    told (readItems record true (field :: fields) (a ++ (form ++ tail))) =
      outcome field.read form >>= fun x => told (readItems (field.set x record) false fields tail) := by
  have hread := (hfield form parts h).front ht
  obtain ⟨c, more, hdrop, hmore, hclose, -⟩ := h.dropBlank_item ha tail
  rw [readItems_cons, readItemStart_first hdrop hclose, hmore]
  show told (field.fill record (form ++ tail) >>= fun (record, rest) => readItems record false fields rest) = _
  rw [told_bind, told_fill, hread, map_map, map_bind]

theorem told_readItems_full (ha : Blank a) (h : Wellformed form (.value parts)) (record : σ) :
    told (readItems record true [] (a ++ (form ++ tail))) = .error .trailingCharacters := by
  obtain ⟨c, more, hdrop, -, hclose, hcomma⟩ := h.dropBlank_item ha tail
  rw [readItems_nil, told_map, told_readListEnd hdrop hclose hcomma]
  rfl

/-- Behind a comma the items are read as from the beginning. -/
theorem told_readItems_comma (hb : Blank b) {c : Char} {text more : List Char} (h : dropBlank text = c :: more)
    (hclose : c ≠ ']') (hcomma : c ≠ ',') (fields : List (Field σ)) (record : σ) :
    told (readItems record false fields (b ++ ',' :: text)) = told (readItems record true fields text) := by
  cases fields with
  | nil =>
    rw [readItems_nil, readItems_nil, told_map, told_map, told_readListEnd_comma hb h hclose,
      told_readListEnd h hclose hcomma]
  | cons field fields => rw [readItems_cons, readItems_cons, readItemStart_comma hb h hclose]

/-- At the closing bracket the record is complete. -/
theorem readItems_close (hb : Blank b) (fields : List (Field σ)) (first : Bool) (record : σ)
    (rest : List Char) : readItems record first fields (b ++ ']' :: rest) = .ok (record, rest) := by
  cases fields with
  | nil =>
    have hend : readListEnd (b ++ ']' :: rest) = .ok ((), rest) := by
      unfold readListEnd
      rw [dropBlank_append hb rfl]
      rfl
    rw [readItems_nil, hend]
    rfl
  | cons field fields =>
    have hstart : readItemStart first (b ++ ']' :: rest) = .ok (false, rest) := by
      rw [readItemStart, dropBlank_append hb rfl]
      rfl
    rw [readItems_cons, hstart]
    rfl

/-- Before the first item of a row there is its first character. -/
theorem Wellformed.dropBlank_items (h : Wellformed inside (.items items)) (rest : List Char) :
    ∃ c more, dropBlank (inside ++ rest) = c :: more ∧ c ≠ ']' ∧ c ≠ ',' := by
  cases h with
  | @lastItem a form b parts ha h hb =>
    obtain ⟨c, more, hdrop, -, hc⟩ := h.dropBlank_item ha (b ++ rest)
    exact ⟨c, more, by simpa using hdrop, hc⟩
  | @moreItems a form b tail parts items ha h hb _ =>
    obtain ⟨c, more, hdrop, -, hc⟩ := h.dropBlank_item ha (b ++ ',' :: (tail ++ rest))
    exact ⟨c, more, by simpa using hdrop, hc⟩

/-- **A row of items is read item by item.** -/
theorem told_readItems (hfields : ∀ field ∈ fields, Steady field.read)
    (h : Wellformed inside (.items items)) (rest : List Char) :
    told (readItems record true fields (inside ++ ']' :: rest)) =
      (fillRow fields record items).map fun record => (record, rest) := by
  generalize hsegment : Segment.items items = segment at h
  induction h generalizing items record fields with
  | @lastItem a form b parts ha h hb =>
    cases hsegment
    have hbounded : Bounded (b ++ ']' :: rest) := bounded_append hb (.inl (.inr (.inr (.inl rfl)))) rest
    simp only [List.append_assoc]
    cases fields with
    | nil => exact told_readItems_full ha h record
    | cons field fields =>
      rw [told_readItems_item (hfields field List.mem_cons_self) ha h hbounded, fillRow, bind_map]
      simp only [readItems_close hb, fillRow_nil]
      rfl
  | @moreItems a form b more parts items ha h hb tail _ ih =>
    cases hsegment
    have hbounded : Bounded (b ++ ',' :: (more ++ ']' :: rest)) := bounded_append hb (.inl (.inr (.inl rfl))) _
    obtain ⟨c, _, hdrop, hclose, hcomma⟩ := tail.dropBlank_items (']' :: rest)
    simp only [List.append_assoc, List.cons_append]
    cases fields with
    | nil => exact told_readItems_full ha h record
    | cons field fields =>
      rw [told_readItems_item (hfields field List.mem_cons_self) ha h hbounded, fillRow, bind_map]
      congr 1
      funext x
      rw [told_readItems_comma hb hdrop hclose hcomma]
      exact ih (fun field hmem => hfields field (List.mem_cons_of_mem _ hmem)) rfl
  | _ => cases hsegment

/-! ## 4. Records -/

/-- **A record in an object** is what its members make it. -/
theorem settles_object (hfields : ∀ field ∈ shape.fields, Steady field.read)
    (h : Wellformed form (.value (.object members))) : Settles shape.read form (shape.gather members) := by
  intro a rest ha _
  have hdrop := h.dropBlank_eq ha rest
  rw [Shape.read, hdrop, Shape.gather]
  cases h with
  | @emptyObject inside hb =>
    show told (shape.readMembers _ true [] shape.blank ((inside ++ ['}']) ++ rest)) = _
    rw [List.append_assoc, List.singleton_append, readMembers_close hb]
    rfl
  | @object inside _ hinside =>
    -- the bound on the number of members is no bound
    have hcount : members.length < ((inside ++ ['}']) ++ rest).length + 1 := by
      have hle := hinside.length_members_le
      simp only [List.length_append]
      omega
    show told (shape.readMembers (((inside ++ ['}']) ++ rest).length + 1) true [] shape.blank
      ((inside ++ ['}']) ++ rest)) = _
    rw [List.append_assoc, List.singleton_append] at hcount ⊢
    rw [told_readMembers hfields hinside rest hcount, map_map]

/-- **A record in a list** is what its items make it. -/
theorem settles_list (hfields : ∀ field ∈ shape.fields, Steady field.read)
    (h : Wellformed form (.value (.list items))) :
    Settles shape.read form (fillRow shape.fields shape.blank items) := by
  intro a rest ha _
  have hdrop := h.dropBlank_eq ha rest
  rw [Shape.read, hdrop]
  cases h with
  | @emptyList inside hb =>
    show told (readItems shape.blank true shape.fields ((inside ++ [']']) ++ rest)) = _
    rw [List.append_assoc, List.singleton_append, readItems_close hb, fillRow_nil]
    rfl
  | @list inside _ hinside =>
    show told (readItems shape.blank true shape.fields ((inside ++ [']']) ++ rest)) = _
    rw [List.append_assoc, List.singleton_append, told_readItems hfields hinside rest]

/-- No scalar is a record. -/
theorem settles_scalar (h : Wellformed form (.value .scalar)) :
    Settles shape.read form
      (outcome (readScalar ("struct " ++ shape.name) fun _ => (none : Option σ)) form) := by
  intro a rest ha hrest
  have hdrop := h.dropBlank_eq ha rest
  have hsteady := steady_readScalar ("struct " ++ shape.name) fun _ => (none : Option σ)
  have hread := (hsteady form .scalar h).front hrest
  obtain ⟨c, more, rfl, hlist, hobject⟩ := h.bracket
  rw [List.cons_append] at hdrop hread ⊢
  rw [Shape.read, hdrop]
  split
  · rename_i heq
    exact absurd (List.cons.inj heq).1 hlist
  · rename_i heq
    exact absurd (List.cons.inj heq).1 hobject
  · exact hread

/-- **The reader of a record is steady** if those of its fields are. -/
theorem steady_shape (hfields : ∀ field ∈ shape.fields, Steady field.read) : Steady shape.read := by
  refine steady_of_settles fun form parts h => ?_
  cases parts with
  | scalar => exact ⟨_, settles_scalar h⟩
  | list items => exact ⟨_, settles_list hfields h⟩
  | object members => exact ⟨_, settles_object hfields h⟩

end

end LinkPane.Json
