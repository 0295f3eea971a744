import LinkPane.Proofs.Json.Completeness

/-!
# Only texts of the grammar are read

A run of the reader yields a derivation of the grammar. What the machine has read is, at every character, a
beginning of a text of the grammar, and its state says which one:

* `RowBefore`, `KeyBefore` -- what has been read inside a bracket, by what it makes of the forms that may
  follow;
* `Open` -- the text up to a place where a value may begin, by the brackets open there;
* `Holds` -- the invariant: what the text read so far is, state by state;
* **`Holds.next`** -- every character that is read keeps the invariant;
* **`isText_of_readAll`**, **`readAll_eq_ok_iff`** -- what is read as a value is a text of that value, and
  nothing else is.
-/

namespace LinkPane.Json

/-! ## 1. Inside a bracket -/

/-- Items or members in a row. -/
def Part.IsRow : Part → Prop
  | .value _ => False
  | .items _ | .members _ => True

/-- More blanks in front of a row. -/
theorem Form.blank_append {room : Nat} {b text : List Char} {part : Part} (h : Form room text part)
    (hrow : part.IsRow) (hb : Blank b) : Form room (b ++ text) part := by
  cases h with
  | lastItem ha h hc =>
    rw [← List.append_assoc]
    exact .lastItem (hb.append ha) h hc
  | moreItems ha h hc tail =>
    rw [← List.append_assoc]
    exact .moreItems (hb.append ha) h hc tail
  | lastMember ha hk hc hd h he =>
    rw [← List.append_assoc]
    exact .lastMember (hb.append ha) hk hc hd h he
  | moreMembers ha hk hc hd h he tail =>
    rw [← List.append_assoc]
    exact .moreMembers (hb.append ha) hk hc hd h he tail
  | _ => exact absurd hrow id

/-- `inside` holds the beginning of a row, and `before` has it latest first. A derivation has its first item
    outermost, so one that has only begun is kept as what it makes of the row that follows. -/
def RowBefore {α : Type} (part : List α → Part) (before : List α) (room : Nat) (inside : List Char) : Prop :=
  ∀ rest more, Form room rest (part more) → Form room (inside ++ rest) (part (before.reverse ++ more))

/-- `inside` holds the items of a list but for those that follow. -/
def ItemsBefore (items : List Value) (room : Nat) (inside : List Char) : Prop :=
  RowBefore .items items room inside

/-- The same for the members of an object. -/
def MembersBefore (members : List (String × Value)) (room : Nat) (inside : List Char) : Prop :=
  RowBefore .members members room inside

/-- `inside` holds the members of an object up to a key and its colon. -/
def KeyBefore (members : List (String × Value)) (key : String) (room : Nat) (inside : List Char) : Prop :=
  ∃ front form name b c, inside = front ++ '"' :: (form ++ '"' :: (b ++ ':' :: c)) ∧
    MembersBefore members room front ∧ Spelled form name ∧ key = String.ofList name ∧ Blank b ∧ Blank c

section

variable {limit room : Nat} {frames outer : List Frame} {s s' : State} {v : Value} {c opening : Char}
  {text inside : List Char} {items : List Value} {members : List (String × Value)} {key : String}

theorem blank_singleton (hc : isBlank c = true) : Blank [c] := fun _ hd =>
  List.mem_singleton.mp hd ▸ isBlank_iff.mp hc

theorem rowBefore_nil {α : Type} {part : List α → Part} (hrow : ∀ xs, (part xs).IsRow) (h : Blank inside) :
    RowBefore part [] room inside := fun _ more hrest =>
  hrest.blank_append (hrow more) h

theorem RowBefore.blank {α : Type} {part : List α → Part} {before : List α}
    (h : RowBefore part before room inside) (hrow : ∀ xs, (part xs).IsRow) (hc : isBlank c = true) :
    RowBefore part before room (inside ++ [c]) := fun rest more hrest => by
  rw [List.append_assoc]
  exact h _ more (hrest.blank_append (hrow more) (blank_singleton hc))

theorem itemsBefore_nil (h : Blank inside) : ItemsBefore [] room inside :=
  rowBefore_nil (fun _ => trivial) h

theorem membersBefore_nil (h : Blank inside) : MembersBefore [] room inside :=
  rowBefore_nil (fun _ => trivial) h

theorem ItemsBefore.blank (h : ItemsBefore items room inside) (hc : isBlank c = true) :
    ItemsBefore items room (inside ++ [c]) :=
  RowBefore.blank h (fun _ => trivial) hc

theorem MembersBefore.blank (h : MembersBefore members room inside) (hc : isBlank c = true) :
    MembersBefore members room (inside ++ [c]) :=
  RowBefore.blank h (fun _ => trivial) hc

theorem KeyBefore.blank (h : KeyBefore members key room inside) (hc : isBlank c = true) :
    KeyBefore members key room (inside ++ [c]) := by
  obtain ⟨front, form, name, b, d, rfl, hfront, hform, hkey, hb, hd⟩ := h
  exact ⟨front, form, name, b, d ++ [c], by simp, hfront, hform, hkey, hb, hd.append (blank_singleton hc)⟩

/-! ## 2. Open brackets -/

/-- The bracket that opens a frame. -/
def Frame.bracket : Frame → Char
  | .list _ => '['
  | .object _ _ => '{'

/-- What has been read inside a frame. -/
def Frame.Before : Frame → Nat → List Char → Prop
  | .list items => ItemsBefore items
  | .object members key => KeyBefore members key

/-- The text up to a place where a value may begin; `frames` are open there. -/
inductive Open (limit : Nat) : List Char → List Frame → Prop
  | root {a : List Char} (ha : Blank a) : Open limit a []
  | inside {before inside : List Char} {frame : Frame} {outer : List Frame} (h : Open limit before outer)
      (depth : outer.length < limit) (hf : frame.Before (limit - (outer.length + 1)) inside) :
      Open limit (before ++ frame.bracket :: inside) (frame :: outer)

theorem Frame.Before.blank {frame : Frame} (h : frame.Before room inside) (hc : isBlank c = true) :
    frame.Before room (inside ++ [c]) := by
  cases frame with
  | list items => exact ItemsBefore.blank h hc
  | object members key => exact KeyBefore.blank h hc

theorem Open.blank (h : Open limit text frames) (hc : isBlank c = true) : Open limit (text ++ [c]) frames := by
  cases h with
  | root ha => exact .root (ha.append (blank_singleton hc))
  | inside h depth hf =>
    rw [List.append_assoc]
    exact .inside h depth (hf.blank hc)

/-- The text up to somewhere behind a bracket; `P` tells what stands there, and `outer` is open around the
    bracket. -/
def Entered (limit : Nat) (opening : Char) (outer : List Frame) (P : Nat → List Char → Prop)
    (text : List Char) : Prop :=
  ∃ before inside, text = before ++ opening :: inside ∧ Open limit before outer ∧ outer.length < limit ∧
    P (limit - (outer.length + 1)) inside

theorem Entered.snoc {P Q : Nat → List Char → Prop} (h : Entered limit opening outer P text)
    (hpq : ∀ {room inside}, P room inside → Q room (inside ++ [c])) :
    Entered limit opening outer Q (text ++ [c]) := by
  obtain ⟨before, inside, rfl, hopen, hdepth, hp⟩ := h
  exact ⟨before, inside ++ [c], by simp, hopen, hdepth, hpq hp⟩

theorem Entered.imp {P Q : Nat → List Char → Prop} (h : Entered limit opening outer P text)
    (hpq : ∀ {room inside}, P room inside → Q room inside) : Entered limit opening outer Q text := by
  obtain ⟨before, inside, htext, hopen, hdepth, hp⟩ := h
  exact ⟨before, inside, htext, hopen, hdepth, hpq hp⟩

theorem Entered.open {frame : Frame} (h : Entered limit frame.bracket outer frame.Before text) :
    Open limit text (frame :: outer) := by
  obtain ⟨before, inside, rfl, hopen, hdepth, hf⟩ := h
  exact .inside hopen hdepth hf

/-! ## 3. The invariant -/

/-- The text up to behind the value `v`, and blanks. -/
def Passed (limit : Nat) (v : Value) (frames : List Frame) (text : List Char) : Prop :=
  ∃ before form b, text = before ++ (form ++ b) ∧ Open limit before frames ∧
    Form (limit - frames.length) form (.value v) ∧ Blank b

/-- **What the text read so far is**, where the machine is in a state. -/
def Holds (limit : Nat) (text : List Char) : State → Prop
  | .beforeValue frames => Open limit text frames
  | .firstItem outer => Entered limit '[' outer (fun _ inside => Blank inside) text
  | .nextItem items outer => Entered limit '[' outer (ItemsBefore items) text
  | .firstKey outer => Entered limit '{' outer (fun _ inside => Blank inside) text
  | .nextKey members outer => Entered limit '{' outer (MembersBefore members) text
  | .inKey q members outer =>
    Entered limit '{' outer (fun room inside => ∃ front form, inside = front ++ '"' :: form ∧
      MembersBefore members room front ∧ q.Reads form) text
  | .afterKey members key outer =>
    Entered limit '{' outer (fun room inside => ∃ front form name b,
      inside = front ++ '"' :: (form ++ '"' :: b) ∧ MembersBefore members room front ∧
        Spelled form name ∧ key = String.ofList name ∧ Blank b) text
  | .inWord c rest value frames =>
    ∃ before word, text = before ++ word ∧ Open limit before frames ∧
      ∀ room, Form room (word ++ c :: rest) (.value value)
  | .inText q frames => ∃ before form, text = before ++ '"' :: form ∧ Open limit before frames ∧ q.Reads form
  | .inNumber d frames => ∃ before form, text = before ++ form ∧ Open limit before frames ∧ d.Reads form
  | .afterValue v frames => Passed limit v frames text

/-- Nothing is read at first. -/
theorem holds_nil : Holds limit [] (.beforeValue []) := Open.root blank_nil

/-! ## 4. Single characters -/

/-- A bracket is opened where one more may be. -/
theorem holds_of_enter (h : Open limit text frames) (state : State)
    (hs : State.enter limit frames state = .next s')
    (hstate : Entered limit c frames (fun _ inside => Blank inside) (text ++ [c]) →
      Holds limit (text ++ [c]) state) :
    Holds limit (text ++ [c]) s' := by
  unfold State.enter at hs
  split at hs
  · rename_i hdepth
    cases hs
    exact hstate ⟨text, [], rfl, h, hdepth, blank_nil⟩
  · cases hs

/-- The first character of a value. -/
theorem holds_of_begin (h : Open limit text frames) (hs : State.begin limit frames c = .next s') :
    Holds limit (text ++ [c]) s' := by
  unfold State.begin at hs
  split at hs
  · rename_i hc
    cases hs
    exact ⟨text, ['n'], by rw [hc], h, fun _ => .null⟩
  split at hs
  · rename_i hc
    cases hs
    exact ⟨text, ['t'], by rw [hc], h, fun _ => .yes⟩
  split at hs
  · rename_i hc
    cases hs
    exact ⟨text, ['f'], by rw [hc], h, fun _ => .no⟩
  split at hs
  · rename_i hc
    cases hs
    exact ⟨text, [], by rw [hc], h, Quote.reads_empty⟩
  split at hs
  · rename_i hc
    exact holds_of_enter h _ hs fun hin => hc ▸ hin
  split at hs
  · rename_i hc
    exact holds_of_enter h _ hs fun hin => hc ▸ hin
  split at hs
  · rename_i hc
    cases hs
    exact ⟨text, [c], rfl, h, Digits.reads_first hc⟩
  · cases hs

/-- A bracket is closed behind its inside. -/
theorem Entered.close {close : Char} {P : Nat → List Char → Prop} (h : Entered limit opening outer P text)
    (hform : ∀ {room inside}, P room inside →
      Form (room + 1) (opening :: (inside ++ [close])) (.value v)) :
    Passed limit v outer (text ++ [close]) := by
  obtain ⟨before, inside, rfl, hopen, hdepth, hp⟩ := h
  -- the bracket itself takes one from the room around it
  have hroom : limit - (outer.length + 1) + 1 = limit - outer.length := by omega
  exact ⟨before, opening :: (inside ++ [close]), [], by simp, hopen, hroom ▸ hform hp, blank_nil⟩

theorem Passed.blank (h : Passed limit v frames text) (hc : isBlank c = true) :
    Passed limit v frames (text ++ [c]) := by
  obtain ⟨before, form, b, rfl, hopen, hform, hb⟩ := h
  exact ⟨before, form, b ++ [c], by simp, hopen, hform, hb.append (blank_singleton hc)⟩

/-- A value, with its frame looked into. -/
theorem Passed.inFrame {frame : Frame} (h : Passed limit v (frame :: outer) text) :
    Entered limit frame.bracket outer (fun room inside => ∃ front form b, inside = front ++ (form ++ b) ∧
      frame.Before room front ∧ Form room form (.value v) ∧ Blank b) text := by
  obtain ⟨before, form, b, rfl, hopen, hform, hb⟩ := h
  cases hopen with
  | @inside before inside frame outer hopen hdepth hf =>
    exact ⟨before, inside ++ (form ++ b), by simp, hopen, hdepth, inside, form, b, rfl, hf, hform, hb⟩

/-- The first character behind an item. -/
theorem holds_of_follow_list (h : Passed limit v (.list items :: outer) text)
    (hs : State.follow v (.list items :: outer) c = .next s') : Holds limit (text ++ [c]) s' := by
  simp only [State.follow] at hs
  split at hs
  · rename_i hc
    cases hs
    exact h.blank hc
  split at hs
  · rename_i hc
    cases hs
    -- behind the comma the row goes on with this item in front
    refine h.inFrame.snoc ?_
    intro room inside hin rest more hrest
    obtain ⟨front, form, b, hinside, hfront, hform, hb⟩ := hin
    have := hfront _ _ (.moreItems blank_nil hform hb hrest)
    simpa [hinside, hc] using this
  split at hs
  · rename_i hc
    cases hs
    refine h.inFrame.close ?_
    intro room inside hin
    obtain ⟨front, form, b, hinside, hfront, hform, hb⟩ := hin
    have := Form.list (hfront _ _ (.lastItem blank_nil hform hb))
    simpa [hinside, hc, Frame.bracket] using this
  · cases hs

/-- The first character behind the value of a member. -/
theorem holds_of_follow_object (h : Passed limit v (.object members key :: outer) text)
    (hs : State.follow v (.object members key :: outer) c = .next s') : Holds limit (text ++ [c]) s' := by
  simp only [State.follow] at hs
  split at hs
  · rename_i hc
    cases hs
    exact h.blank hc
  split at hs
  · rename_i hc
    cases hs
    refine h.inFrame.snoc ?_
    intro room inside hin rest more hrest
    obtain ⟨front, form, b, hinside, hfront, hform, hb⟩ := hin
    obtain ⟨before, kform, name, d, e, rfl, hbefore, hkform, rfl, hd, he⟩ := hfront
    have := hbefore _ _ (.moreMembers blank_nil hkform hd he hform hb hrest)
    simpa [hinside, hc] using this
  split at hs
  · rename_i hc
    cases hs
    refine h.inFrame.close ?_
    intro room inside hin
    obtain ⟨front, form, b, hinside, hfront, hform, hb⟩ := hin
    obtain ⟨before, kform, name, d, e, rfl, hbefore, hkform, rfl, hd, he⟩ := hfront
    have := Form.object (hbefore _ _ (.lastMember blank_nil hkform hd he hform hb))
    simpa [hinside, hc, Frame.bracket] using this
  · cases hs

/-- The first character behind a value, where the machine goes on. -/
theorem holds_of_follow (h : Passed limit v frames text) (hs : State.follow v frames c = .next s') :
    Holds limit (text ++ [c]) s' := by
  cases frames with
  | nil => cases hs
  | cons frame outer =>
    cases frame with
    | list items => exact holds_of_follow_list h hs
    | object members key => exact holds_of_follow_object h hs

/-- A number that ends is a value. -/
theorem Passed.number {before form : List Char} {d : Digits} {n : Numeral} (hopen : Open limit before frames)
    (hr : d.Reads form) (hend : d.place.isEnd = true) (hn : d.finish = .ok n) :
    Passed limit (.number n) frames (before ++ form) := by
  have hrange : d.literal.numeral? = some n := by
    unfold Digits.finish at hn
    split at hn
    · rename_i m hm
      rw [hm, Except.ok.inj hn]
    · cases hn
  exact ⟨before, form, [], by simp, hopen, .number (hr.numberForm hend) hrange, blank_nil⟩

/-- A number is ended by the character behind it. -/
theorem Digits.finish_of_stop {d : Digits} {n : Numeral} (h : d.step c = .stop n) :
    d.place.isEnd = true ∧ d.finish = .ok n := by
  unfold step at h
  split at h
  · dsimp only at h
    split at h <;> cases h
  · rename_i hended
    split at h
    · rename_i hn
      cases h
      exact ⟨Place.isEnd_of_ended hended, hn⟩
    · cases h
  · cases h

/-- **Every character that is read keeps the invariant.** -/
theorem Holds.next (h : Holds limit text s) (hs : s.step limit c = .next s') :
    Holds limit (text ++ [c]) s' := by
  -- one case for each state, and in it one for each branch that goes on
  cases s with
  | beforeValue frames =>
    simp only [State.step] at hs
    split at hs
    · rename_i hc
      cases hs
      exact Open.blank h hc
    · exact holds_of_begin h hs
  | firstItem outer =>
    rw [Holds] at h
    simp only [State.step] at hs
    split at hs
    · rename_i hc
      cases hs
      rw [Holds]
      exact h.snoc fun ha => ha.append (blank_singleton hc)
    split at hs
    · rename_i hc
      cases hs
      exact h.close fun ha => hc ▸ .emptyList ha
    · exact holds_of_begin (h.imp itemsBefore_nil).open hs
  | nextItem items outer =>
    rw [Holds] at h
    simp only [State.step] at hs
    split at hs
    · rename_i hc
      cases hs
      rw [Holds]
      exact h.snoc fun hi => hi.blank hc
    split at hs
    · cases hs
    · exact holds_of_begin h.open hs
  | firstKey outer =>
    rw [Holds] at h
    simp only [State.step] at hs
    split at hs
    · rename_i hc
      cases hs
      rw [Holds]
      exact h.snoc fun ha => ha.append (blank_singleton hc)
    split at hs
    · rename_i hc
      cases hs
      exact h.close fun ha => hc ▸ .emptyObject ha
    split at hs
    · rename_i hc
      cases hs
      rw [Holds]
      exact h.snoc fun ha => ⟨_, [], by rw [hc], membersBefore_nil ha, Quote.reads_empty⟩
    · cases hs
  | nextKey members outer =>
    rw [Holds] at h
    simp only [State.step] at hs
    split at hs
    · rename_i hc
      cases hs
      rw [Holds]
      exact h.snoc fun hm => hm.blank hc
    split at hs
    · cases hs
    split at hs
    · rename_i hc
      cases hs
      rw [Holds]
      exact h.snoc fun hm => ⟨_, [], by rw [hc], hm, Quote.reads_empty⟩
    · cases hs
  | inKey q members outer =>
    rw [Holds] at h
    simp only [State.step] at hs
    split at hs
    · rename_i q' hq
      cases hs
      rw [Holds]
      refine h.snoc ?_
      intro room inside hin
      obtain ⟨front, form, hinside, hm, hr⟩ := hin
      exact ⟨front, form ++ [c], by simp [hinside], hm, Quote.reads_of_next hr hq⟩
    · rename_i key hq
      cases hs
      rw [Holds]
      refine h.snoc ?_
      intro room inside hin
      obtain ⟨front, form, hinside, hm, hr⟩ := hin
      obtain ⟨rfl, name, hname, rfl⟩ := Quote.spelled_of_stop hr hq
      exact ⟨front, form, name, [], by simp [hinside], hm, hname, rfl, blank_nil⟩
    · cases hs
  | afterKey members key outer =>
    rw [Holds] at h
    simp only [State.step] at hs
    split at hs
    · rename_i hc
      cases hs
      rw [Holds]
      refine h.snoc ?_
      intro room inside hin
      obtain ⟨front, form, name, b, hinside, hm, hname, hkey, hb⟩ := hin
      exact ⟨front, form, name, b ++ [c], by simp [hinside], hm, hname, hkey,
        hb.append (blank_singleton hc)⟩
    split at hs
    · rename_i hc
      cases hs
      refine Entered.open (h.snoc ?_)
      intro room inside hin
      obtain ⟨front, form, name, b, hinside, hm, hname, hkey, hb⟩ := hin
      exact ⟨front, form, name, b, [], by simp [hinside, hc], hm, hname, hkey, hb, blank_nil⟩
    · cases hs
  | inWord d rest value frames =>
    obtain ⟨before, word, rfl, hopen, hword⟩ := h
    simp only [State.step] at hs
    split at hs
    · rename_i hc
      subst hc
      cases rest with
      | nil =>
        cases hs
        exact ⟨before, word ++ [c], [], by simp, hopen, hword _, blank_nil⟩
      | cons d rest =>
        cases hs
        exact ⟨before, word ++ [c], by simp, hopen, by simpa using hword⟩
    · cases hs
  | inText q frames =>
    obtain ⟨before, form, rfl, hopen, hr⟩ := h
    simp only [State.step] at hs
    split at hs
    · rename_i q' hq
      cases hs
      exact ⟨before, form ++ [c], by simp, hopen, Quote.reads_of_next hr hq⟩
    · rename_i key hq
      cases hs
      obtain ⟨rfl, name, hname, rfl⟩ := Quote.spelled_of_stop hr hq
      exact ⟨before, '"' :: (form ++ ['"']), [], by simp, hopen, .text hname, blank_nil⟩
    · cases hs
  | inNumber d frames =>
    obtain ⟨before, form, rfl, hopen, hr⟩ := h
    simp only [State.step] at hs
    split at hs
    · rename_i d' hd
      cases hs
      exact ⟨before, form ++ [c], by simp, hopen, Digits.reads_of_next hr hd⟩
    · rename_i n hd
      obtain ⟨hend, hn⟩ := Digits.finish_of_stop hd
      exact holds_of_follow (.number hopen hr hend hn) hs
    · cases hs
  | afterValue v frames => exact holds_of_follow h hs

/-! ## 5. Whole texts -/

theorem begin_ne_stop : State.begin limit frames c ≠ .stop v := by
  intro h
  unfold State.begin State.enter at h
  repeat' split at h
  all_goals cases h

/-- Only outside all brackets a value ends the reading. -/
theorem follow_eq_stop {w : Value} (h : State.follow w frames c = .stop v) : frames = [] ∧ w = v := by
  unfold State.follow at h
  split at h
  · cases h
    exact ⟨rfl, rfl⟩
  all_goals
    repeat' split at h
    all_goals cases h

/-- Where the machine stops, a whole value has been read. -/
theorem Holds.stop (h : Holds limit text s) (hs : s.step limit c = .stop v) : Passed limit v [] text := by
  cases s with
  | inNumber d frames =>
    obtain ⟨before, form, rfl, hopen, hr⟩ := h
    simp only [State.step] at hs
    split at hs
    · cases hs
    · rename_i n hd
      obtain ⟨hend, hn⟩ := Digits.finish_of_stop hd
      obtain ⟨rfl, rfl⟩ := follow_eq_stop hs
      exact .number hopen hr hend hn
    · cases hs
  | afterValue w frames =>
    obtain ⟨rfl, rfl⟩ := follow_eq_stop hs
    exact h
  | _ =>
    simp only [State.step] at hs
    repeat' split at hs
    all_goals first | cases hs | exact absurd hs begin_ne_stop

theorem finishAfter_eq_ok {w : Value} (h : State.finishAfter w frames = .ok v) : frames = [] ∧ w = v := by
  unfold State.finishAfter at h
  split at h
  · cases h
    exact ⟨rfl, rfl⟩
  all_goals cases h

/-- Where the text may end, a whole value has been read. -/
theorem Holds.finish (h : Holds limit text s) (hs : s.finish = .ok v) : Passed limit v [] text := by
  cases s with
  | inNumber d frames =>
    obtain ⟨before, form, rfl, hopen, hr⟩ := h
    simp only [State.finish] at hs
    split at hs
    · rename_i hend
      split at hs
      · rename_i n hn
        obtain ⟨rfl, rfl⟩ := finishAfter_eq_ok hs
        exact .number hopen hr hend hn
      · cases hs
    · cases hs
  | afterValue w frames =>
    obtain ⟨rfl, rfl⟩ := finishAfter_eq_ok hs
    exact h
  | _ => cases hs

theorem Passed.isText (h : Passed limit v [] text) {rest : List Char} (hrest : Blank rest) :
    IsText limit (text ++ rest) v := by
  obtain ⟨before, form, b, rfl, hopen, hform, hb⟩ := h
  cases hopen with
  | root ha => exact ⟨before, form, b ++ rest, by simp, ha, hform, hb.append hrest⟩

theorem blank_of_dropBlank {b : List Char} (h : dropBlank b = []) : Blank b := by
  induction b with
  | nil => exact blank_nil
  | cons c b ih =>
    unfold dropBlank at h ih
    rw [List.dropWhile_cons] at h
    split at h
    · rename_i hc
      exact List.forall_mem_cons.mpr ⟨isBlank_iff.mp hc, ih h⟩
    · cases h

/-- **What is read as a value is a text of that value.** -/
theorem isText_of_readAll (h : readAll (readValue limit) text = .ok v) : IsText limit text v := by
  unfold readAll at h
  split at h
  · cases h
  · rename_i w rest hrun
    split at h
    · rename_i hrest
      cases h
      have hblank := blank_of_dropBlank hrest
      obtain ⟨read, s, rfl, hfeed, hend⟩ := Machine.fed_of_run _ hrun
      have hholds : Holds limit ([] ++ read) s := (valueMachine limit).feed_keeps Holds.next holds_nil hfeed
      rcases hend with ⟨-, hfinish⟩ | ⟨c, more, -, hstop⟩
      · exact (hholds.finish hfinish).isText hblank
      · exact (hholds.stop hstop).isText hblank
    · cases h

/-- **The reader reads the grammar**: a text is read as a value iff it is a text of that value. -/
theorem readAll_eq_ok_iff : readAll (readValue limit) text = .ok v ↔ IsText limit text v :=
  ⟨isText_of_readAll, readAll_of_isText⟩

end

end LinkPane.Json
