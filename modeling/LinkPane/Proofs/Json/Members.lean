import LinkPane.Json.Value

/-!
# The map of an object

An object may give a key more than once; its map has every key once, with the value that was given last:

* `lookup_insertMember`, `Sorted.insertMember` -- what one more member does to a map;
* `LastMember` -- the last member of a name, in the order of the text;
* **`lookup_memberMap_eq_some_iff`** -- the map has the last members and no others;
* **`memberMap_sorted`** -- its keys are in order, so no key is there twice.
-/

namespace LinkPane.Json

/-! ## 1. One more member -/

/-- The keys of a map are in order, and no key is there twice. -/
def Sorted (map : List (String × Value)) : Prop :=
  map.Pairwise fun a b => a.1 < b.1

theorem lookup_member (key name : String) (value : Value) (map : List (String × Value)) :
    ((key, value) :: map).lookup name = if name = key then some value else map.lookup name := by
  rw [List.lookup_cons]
  by_cases h : name = key
  · simp [h]
  · simp [h, beq_false_of_ne h]

/-- The first key of a map is not there again. -/
theorem Sorted.lookup_eq_none {key : String} {value : Value} {map : List (String × Value)}
    (h : Sorted ((key, value) :: map)) : map.lookup key = none := by
  refine List.lookup_eq_none_iff.mpr fun member hmem => bne_iff_ne.mpr fun heq => ?_
  exact String.lt_irrefl key (heq ▸ (List.pairwise_cons.mp h).1 member hmem)

/-- A member that is put into a map is there, and no other member is touched. -/
theorem lookup_insertMember (key name : String) (value : Value) (map : List (String × Value)) :
    (insertMember key value map).lookup name = if name = key then some value else map.lookup name := by
  induction map with
  | nil => exact lookup_member key name value []
  | cons member map ih =>
    obtain ⟨k, v⟩ := member
    rw [insertMember]
    split
    · exact lookup_member key name value _
    split
    · rename_i hk
      subst hk
      simp only [lookup_member]
      split <;> rfl
    · rename_i hk
      rw [lookup_member, lookup_member, ih]
      by_cases h : name = k
      · have hne : name ≠ key := fun h' => hk (h'.symm.trans h)
        rw [if_pos h, if_neg hne, if_pos h]
      · rw [if_neg h, if_neg h]

/-- No other key comes into a map. -/
theorem key_mem_insertMember {key : String} {value : Value} {map : List (String × Value)}
    {member : String × Value} (h : member ∈ insertMember key value map) : member.1 = key ∨ member ∈ map := by
  induction map with
  | nil =>
    rw [insertMember, List.mem_singleton] at h
    exact .inl (congrArg Prod.fst h)
  | cons first map ih =>
    obtain ⟨k, v⟩ := first
    rw [insertMember] at h
    split at h
    · exact (List.mem_cons.mp h).imp_left (congrArg Prod.fst)
    split at h
    · exact (List.mem_cons.mp h).imp (congrArg Prod.fst) (List.mem_cons_of_mem _)
    · rcases List.mem_cons.mp h with rfl | h
      · exact .inr List.mem_cons_self
      · exact (ih h).imp_right (List.mem_cons_of_mem _)

theorem Sorted.insertMember {map : List (String × Value)} (h : Sorted map) (key : String) (value : Value) :
    Sorted (insertMember key value map) := by
  induction map with
  | nil => exact List.pairwise_singleton _ _
  | cons first map ih =>
    obtain ⟨k, v⟩ := first
    obtain ⟨hfirst, hmap⟩ := List.pairwise_cons.mp h
    rw [Json.insertMember]
    split
    · rename_i hlt
      refine List.pairwise_cons.mpr ⟨fun member hmem => ?_, h⟩
      rcases List.mem_cons.mp hmem with rfl | hmem
      · exact hlt
      · exact String.lt_trans hlt (hfirst member hmem)
    split
    · rename_i heq
      exact List.pairwise_cons.mpr ⟨fun member hmem => heq ▸ hfirst member hmem, hmap⟩
    · rename_i hlt hne
      have hgt : k < key := by
        rcases Std.lt_trichotomy key k with h | h | h
        · exact absurd h hlt
        · exact absurd h hne
        · exact h
      refine List.pairwise_cons.mpr ⟨fun member hmem => ?_, ih hmap⟩
      rcases key_mem_insertMember hmem with heq | hmem
      · exact heq ▸ hgt
      · exact hfirst member hmem

/-! ## 2. All members -/

theorem lookup_foldl_insertMember (members map : List (String × Value)) (name : String) :
    (members.foldl (fun map (key, value) => insertMember key value map) map).lookup name =
      (members.reverse.lookup name).or (map.lookup name) := by
  induction members generalizing map with
  | nil => rfl
  | cons member members ih =>
    obtain ⟨key, value⟩ := member
    rw [List.foldl_cons, ih, lookup_insertMember, List.reverse_cons, List.lookup_append, Option.or_assoc,
      lookup_member]
    split <;> rfl

/-- The last member of a name, with what comes before it and behind it. -/
def LastMember (members : List (String × Value)) (name : String) (value : Value) : Prop :=
  ∃ front back, members = front ++ (name, value) :: back ∧ ∀ member ∈ back, member.1 ≠ name

/-- **The map has the last members**, and no others. -/
theorem lookup_memberMap_eq_some_iff {members : List (String × Value)} {name : String} {value : Value} :
    (memberMap members).lookup name = some value ↔ LastMember members name value := by
  rw [memberMap, lookup_foldl_insertMember, List.lookup_nil, Option.or_none, List.lookup_eq_some_iff]
  constructor
  · rintro ⟨back, front, hsplit, hback⟩
    refine ⟨front.reverse, back.reverse, ?_, fun member hmem => ?_⟩
    · rw [← List.reverse_reverse members, hsplit]
      simp
    · exact (bne_iff_ne.mp (hback member (List.mem_reverse.mp hmem))).symm
  · rintro ⟨front, back, rfl, hback⟩
    refine ⟨back.reverse, front.reverse, by simp, fun member hmem => ?_⟩
    exact bne_iff_ne.mpr (hback member (List.mem_reverse.mp hmem)).symm

theorem lookup_memberMap_eq_none_iff {members : List (String × Value)} {name : String} :
    (memberMap members).lookup name = none ↔ ∀ member ∈ members, member.1 ≠ name := by
  rw [memberMap, lookup_foldl_insertMember, List.lookup_nil, Option.or_none, List.lookup_eq_none_iff]
  constructor
  · exact fun h member hmem => (bne_iff_ne.mp (h member (List.mem_reverse.mpr hmem))).symm
  · exact fun h member hmem => bne_iff_ne.mpr (h member (List.mem_reverse.mp hmem)).symm

/-- **The keys of the map are in order**, and no key is there twice. -/
theorem memberMap_sorted (members : List (String × Value)) : Sorted (memberMap members) := by
  have hfold : ∀ map, Sorted map →
      Sorted (members.foldl (fun map (key, value) => insertMember key value map) map) := by
    induction members with
    | nil => exact fun map h => h
    | cons member members ih => exact fun map h => ih _ (h.insertMember member.1 member.2)
  exact hfold [] List.Pairwise.nil

end LinkPane.Json
