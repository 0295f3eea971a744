import LinkPane.Proofs.Table.Refresh
import Mathlib.Data.List.Nodup

/-!
# The keys of rows

A row is kept on the page while its key stays. So a key must be that of one row only, and must say all that
is drawn of it:

* `Layout.getElem?_keys_of` -- the key at a place is the place and the link there;
* `Layout.nodup_keys` -- no two rows of a layout share a key;
* `Placed` -- two lists in which whatever is in both stands at one place; the keys of two layouts are such lists
  (`Layout.placed_keys`);
* **`Placed.length_eraseDups_append`** -- what stands at one place in both is counted once;
* **`Layout.of_eq_of_iff`** -- a layout says what inputs it was made of;
* **`Layout.keys_identify`** -- the keys of two layouts under one theme, all in all.
-/

namespace LinkPane

/-! ## 1. The key of a row -/

section

variable {theme : Theme} {a b : Inputs}

theorem Layout.keys_of (theme : Theme) (inputs : Inputs) :
    (Layout.of theme inputs).keys = inputs.links.mapIdx RowKey.mk := by
  refine List.ext_getElem? fun i => ?_
  rw [keys, rows_of, List.getElem?_map, List.getElem?_mapIdx, List.getElem?_mapIdx, Option.map_map]
  rfl

/-- The key at a place is the place and the link there. -/
theorem Layout.getElem?_keys_of (theme : Theme) (inputs : Inputs) (i : Nat) :
    (Layout.of theme inputs).keys[i]? = inputs.links[i]?.map (RowKey.mk i) := by
  rw [keys_of, List.getElem?_mapIdx]

theorem Layout.index_of_getElem? {inputs : Inputs} {i : Nat} {key : RowKey}
    (h : (Layout.of theme inputs).keys[i]? = some key) : key.index = i := by
  rw [getElem?_keys_of, Option.map_eq_some_iff] at h
  obtain ⟨link, -, rfl⟩ := h
  rfl

/-- **No two rows of a layout share a key**, since no two share a place. -/
theorem Layout.nodup_keys (theme : Theme) (inputs : Inputs) : (Layout.of theme inputs).keys.Nodup := by
  rw [List.nodup_iff_getElem?_ne_getElem?]
  intro i j hij hj heq
  have hkey := List.getElem?_eq_getElem hj
  have hi := index_of_getElem? (heq.trans hkey)
  have hj := index_of_getElem? hkey
  omega

/-- The row at a place has the key there. -/
theorem Layout.key_getElem (theme : Theme) (inputs : Inputs) (i : Fin (Layout.of theme inputs).rows.length)
    {link : Link} (h : inputs.links[i.val]? = some link) :
    (Layout.of theme inputs).rows[i].key = ⟨i, link⟩ := by
  have hkey := getElem?_keys_of theme inputs i
  rw [keys, List.getElem?_map, List.getElem?_eq_getElem i.isLt, h] at hkey
  exact Option.some.inj hkey

/-- Two rows have one key iff they stand at one place and have one link. -/
theorem Layout.key_eq_key_iff (theme : Theme) (a b : Inputs) (i : Fin (Layout.of theme a).rows.length)
    (j : Fin (Layout.of theme b).rows.length) :
    (Layout.of theme a).rows[i].key = (Layout.of theme b).rows[j].key ↔
      i.val = j.val ∧ a.links[i.val]? = b.links[j.val]? := by
  have hi : i.val < a.links.length := by simpa only [length_rows_of] using i.isLt
  have hj : j.val < b.links.length := by simpa only [length_rows_of] using j.isLt
  have hlink := List.getElem?_eq_getElem hi
  have hother := List.getElem?_eq_getElem hj
  rw [key_getElem theme a i hlink, key_getElem theme b j hother, hlink, hother, RowKey.mk.injEq,
    Option.some.injEq]

/-- A row is all in its key, since its cells are those of the link there. -/
theorem Row.key_eq_key_iff {row other : Row} (h : row ∈ (Layout.of theme a).rows)
    (ho : other ∈ (Layout.of theme b).rows) : row.key = other.key ↔ row = other := by
  constructor
  · intro hkey
    have hcells : row.cells = other.cells := by rw [cells_of_key h, cells_of_key ho, hkey]
    cases row
    cases other
    simp only at hkey hcells
    rw [hkey, hcells]
  · rintro rfl
    rfl

end

/-! ## 2. The keys of two layouts -/

section

variable {α : Type} {k l : List α}

/-- What is in both lists stands at the same place in them. -/
def Placed (k l : List α) : Prop :=
  ∀ (i j : Nat) (x : α), k[i]? = some x → l[j]? = some x → i = j

theorem Placed.tail {x y : α} (h : Placed (x :: k) (y :: l)) : Placed k l := fun i j z hi hj =>
  Nat.succ.inj (h (i + 1) (j + 1) z hi hj)

/-- The first of a list is nowhere else in the other one. -/
theorem Placed.head_notMem {x y : α} (h : Placed (x :: k) (y :: l)) : x ∉ l := by
  intro hmem
  obtain ⟨j, hj⟩ := List.getElem?_of_mem hmem
  exact absurd (h 0 (j + 1) x rfl hj) (Nat.succ_ne_zero j).symm

theorem Placed.symm (h : Placed k l) : Placed l k := fun i j x hi hj => (h j i x hj hi).symm

variable [DecidableEq α]

/-- The members of a list that are in the other one too are those that stand at one place in both. -/
theorem Placed.countP_mem (h : Placed k l) :
    l.countP (fun x => decide (x ∈ k)) = (k.zipWith (fun x y => decide (x = y)) l).count true := by
  induction k generalizing l with
  | nil => simp
  | cons x k ih =>
    cases l with
    | nil => rfl
    | cons y l =>
      have hfirst : y ∈ x :: k ↔ x = y := by
        rw [List.mem_cons, eq_comm, or_iff_left h.symm.head_notMem]
      have hrest : l.countP (fun z => decide (z ∈ x :: k)) = l.countP (fun z => decide (z ∈ k)) := by
        refine List.countP_congr fun z hz => ?_
        have hne : z ≠ x := fun heq => h.head_notMem (heq ▸ hz)
        simp [hne]
      rw [List.countP_cons, hrest, ih h.tail, List.zipWith_cons_cons, List.count_cons]
      simp [hfirst]

/-- A list without repetitions loses nothing. -/
theorem eraseDups_of_nodup (h : k.Nodup) : k.eraseDups = k := by
  induction k with
  | nil => rfl
  | cons x k ih =>
    obtain ⟨hx, hk⟩ := List.nodup_cons.mp h
    have hfilter : (k.filter fun y => !y == x) = k := by
      refine List.filter_eq_self.mpr fun y hy => ?_
      have hne : y ≠ x := fun heq => hx (heq ▸ hy)
      simp [hne]
    rw [List.eraseDups_cons, hfilter, ih hk]

/-- **What stands at one place in both lists is counted once.** -/
theorem Placed.length_eraseDups_append (h : Placed k l) (hk : k.Nodup) (hl : l.Nodup) :
    (k ++ l).eraseDups.length + (k.zipWith (fun x y => decide (x = y)) l).count true =
      k.length + l.length := by
  have hnew : (l.removeAll k).Nodup := hl.filter _
  have hlength : (l.removeAll k).length + l.countP (fun x => decide (x ∈ k)) = l.length := by
    rw [List.length_eq_countP_add_countP (fun x => decide (x ∈ k)) (l := l), List.removeAll,
      ← List.countP_eq_length_filter, Nat.add_comm]
    congr 1
    refine List.countP_congr fun x _ => ?_
    simp
  rw [List.eraseDups_append, eraseDups_of_nodup hk, eraseDups_of_nodup hnew, List.length_append,
    ← h.countP_mem]
  omega

end

section

variable {theme : Theme} {a b : Inputs}

/-- A key stands at the place that it says. -/
theorem Layout.placed_keys (theme : Theme) (a b : Inputs) :
    Placed (Layout.of theme a).keys (Layout.of theme b).keys := fun _ _ _ hi hj =>
  (index_of_getElem? hi).symm.trans (index_of_getElem? hj)

theorem Layout.length_keys_of (theme : Theme) (inputs : Inputs) :
    (Layout.of theme inputs).keys.length = (Layout.of theme inputs).rows.length :=
  List.length_map _

/-- Two layouts have as many keys as rows, less those that stand at one place in both. -/
theorem Layout.distinctKeys_add_count_kept (theme : Theme) (a b : Inputs) :
    (Layout.of theme a).distinctKeys (.of theme b) + ((Layout.of theme a).kept (.of theme b)).count true =
      (Layout.of theme a).rows.length + (Layout.of theme b).rows.length := by
  rw [← length_keys_of, ← length_keys_of]
  exact (placed_keys theme a b).length_eraseDups_append (nodup_keys theme a) (nodup_keys theme b)

/-! ## 3. The inputs of a layout -/

/-- The links are in the keys. -/
theorem Layout.links_of (theme : Theme) (inputs : Inputs) :
    (Layout.of theme inputs).keys.map RowKey.link = inputs.links := by
  refine List.ext_getElem? fun i => ?_
  rw [List.getElem?_map, getElem?_keys_of, Option.map_map]
  exact Option.map_id'

/-- **A layout says what inputs it was made of.** -/
theorem Layout.of_eq_of_iff (theme : Theme) (a b : Inputs) :
    Layout.of theme a = .of theme b ↔ a = b := by
  constructor
  · intro h
    have hsource : a.sourceLabel = b.sourceLabel := congrArg (fun layout => layout.header.source.text) h
    have htarget : a.targetLabel = b.targetLabel := congrArg (fun layout => layout.header.target.text) h
    have hlinks : a.links = b.links := by rw [← links_of theme a, h, links_of]
    cases a
    cases b
    simp only at hsource htarget hlinks
    rw [hsource, htarget, hlinks]
  · rintro rfl
    rfl

/-- **Keys identify rows.** The rows of a layout have keys of their own; rows of two layouts have one key iff
    they stand at one place and show one link, and iff they are one row in all their cells, so that what is drawn
    over another layout is what would be drawn anew; of the keys of two layouts those that stand at one place in both
    are the only ones that are the same; and two layouts are the same only if their inputs are, so that whoever
    waits for a new layout is told of every change. -/
theorem Layout.keys_identify (theme : Theme) (a b : Inputs) :
    (Layout.of theme a).keys.Nodup ∧
    (∀ (i : Fin (Layout.of theme a).rows.length) (j : Fin (Layout.of theme b).rows.length),
      ((Layout.of theme a).rows[i].key = (Layout.of theme b).rows[j].key ↔
        i.val = j.val ∧ a.links[i.val]? = b.links[j.val]?) ∧
      ((Layout.of theme a).rows[i].key = (Layout.of theme b).rows[j].key ↔
        (Layout.of theme a).rows[i] = (Layout.of theme b).rows[j])) ∧
    (Drawn.of (.of theme a)).update (.of theme b) = Drawn.of (.of theme b) ∧
    (Layout.of theme a).distinctKeys (.of theme b) + ((Layout.of theme a).kept (.of theme b)).count true =
      (Layout.of theme a).rows.length + (Layout.of theme b).rows.length ∧
    (Layout.of theme a = .of theme b ↔ a = b) ∧
    (Memo.ask (some (Layout.of theme a)) (decide (b ≠ a)) fun _ => .of theme b) =
      (.of theme b, decide (b ≠ a)) := by
  refine ⟨nodup_keys theme a, fun i j => ⟨key_eq_key_iff theme a b i j, ?_⟩, Drawn.update_of theme a b,
    distinctKeys_add_count_kept theme a b, of_eq_of_iff theme a b, ?_⟩
  · exact Row.key_eq_key_iff (List.getElem_mem i.isLt) (List.getElem_mem j.isLt)
  · have hdue : decide (b ≠ a) = false → Layout.of theme b = .of theme a := fun h => by
      rw [(of_eq_of_iff theme b a).mpr (by simpa using h)]
    rw [Memo.ask_some hdue]
    simp only [ne_eq, of_eq_of_iff]

/-- The first of two equal links is replaced: the second row is kept, and there are three keys. -/
example :
    (Layout.of .standard ⟨"S", "T", [.empty, .empty]⟩).kept
      (.of .standard ⟨"S", "T", [⟨"net", "", ""⟩, .empty]⟩) = [false, true] ∧
    (Layout.of .standard ⟨"S", "T", [.empty, .empty]⟩).distinctKeys
      (.of .standard ⟨"S", "T", [⟨"net", "", ""⟩, .empty]⟩) = 3 := by
  decide

end

end LinkPane
