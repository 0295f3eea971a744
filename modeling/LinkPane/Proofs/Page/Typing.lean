import LinkPane.Proofs.Page.Inspector
import LinkPane.Proofs.Payload.Faults

/-!
# Payloads that are being typed

A list ends with its bracket and not before, so a payload is not taken for a list while it is still being typed:

* `feed_topNumber` -- a number outside all brackets stays one while the reader goes on;
* **`readAll_front`** -- what comes before the end of a list is refused for want of more, or for a number that
  is too large so far;
* `typing` -- the steps in which a payload is typed, one character in each;
* **`Inspector.run_typing`** -- the rows stay while a list is typed, and are its links as soon as it is there.
-/

namespace LinkPane

open Json Text

/-! ## 1. Beginnings of lists -/

section

variable {limit : Nat} {s : State} {v : Value} {front more text : List Char} {c : Char}

/-- A number outside all brackets. -/
def Json.State.TopNumber (s : State) : Prop :=
  ∃ n, s = .inNumber n []

theorem topNumber_of_next (h : s.TopNumber) {s' : State} (hs : s.step limit c = .next s') : s'.TopNumber := by
  obtain ⟨n, rfl⟩ := h
  simp only [State.step] at hs
  split at hs
  · rename_i n' hn
    cases hs
    exact ⟨n', rfl⟩
  · cases hs
  · cases hs

theorem feed_topNumber (h : s.TopNumber) {s' : State} (hs : (valueMachine limit).feed s text = some s') :
    s'.TopNumber :=
  (valueMachine limit).feed_keeps_state (fun hn hnext => topNumber_of_next hn hnext) h hs

/-- Where a text may end, a value outside all brackets is read, or a number that might go on. -/
theorem finish_eq_ok (h : s.finish = .ok v) : s = .afterValue v [] ∨ s.TopNumber := by
  cases s with
  | inNumber n frames =>
    simp only [State.finish] at h
    split at h
    · split at h
      · obtain ⟨rfl, -⟩ := finishAfter_eq_ok h
        exact .inr ⟨n, rfl⟩
      · cases h
    · cases h
  | afterValue w frames =>
    obtain ⟨rfl, rfl⟩ := finishAfter_eq_ok h
    exact .inl rfl
  | _ => cases h

/-- What is read of a number is a number. -/
theorem finish_topNumber (h : s.TopNumber) (hs : s.finish = .ok v) : ∃ n, v = .number n := by
  obtain ⟨d, rfl⟩ := h
  simp only [State.finish] at hs
  split at hs
  · split at hs
    · rename_i n hn
      obtain ⟨-, hv⟩ := finishAfter_eq_ok hs
      exact ⟨n, hv.symm⟩
    · cases hs
  · cases hs

/-- A list that ends in its bracket is read to the end. -/
theorem feed_of_list {items : List Value} (h : readAll (readValue limit) text = .ok (.list items))
    (hlast : text.getLast? = some ']') :
    ∃ s, (valueMachine limit).feed (.beforeValue []) text = some s ∧ s.finish = .ok (.list items) := by
  unfold readAll at h
  split at h
  · cases h
  · rename_i w rest hrun
    split at h
    · rename_i hrest
      cases h
      have hblank := blank_of_dropBlank hrest
      obtain ⟨read, s, rfl, hfeed, hend⟩ := Machine.fed_of_run _ hrun
      rcases hend with ⟨rfl, hfinish⟩ | ⟨c, more, rfl, -⟩
      · rw [List.append_nil]
        exact ⟨s, hfeed, hfinish⟩
      · -- blanks would stand behind the bracket
        rw [List.getLast?_append, List.getLast?_eq_some_getLast (List.cons_ne_nil c more), Option.some_or,
          Option.some.injEq] at hlast
        have hmem := hblank ']' (hlast ▸ List.getLast_mem (List.cons_ne_nil c more))
        simp at hmem
    · cases h

/-- **What comes before the end of a list** is refused at its own end. -/
theorem readAll_front {items : List Value}
    (h : readAll (readValue limit) (front ++ c :: more) = .ok (.list items))
    (hlast : (front ++ c :: more).getLast? = some ']') :
    ∃ cause, readAll (readValue limit) front = .error ⟨cause, 0⟩ ∧
      (cause.isEnd = true ∨ cause = .numberOutOfRange) := by
  obtain ⟨s, hfeed, hfinish⟩ := feed_of_list h hlast
  obtain ⟨between, hfront, hmore⟩ := Machine.feed_of_append _ hfeed
  have hrun : readValue limit front = (valueMachine limit).run between [] := by
    have happend := Machine.run_append _ hfront []
    rwa [List.append_nil] at happend
  cases hbetween : between.finish with
  | error cause =>
    refine ⟨cause, ?_, finish_eq_error hbetween⟩
    have herror : (valueMachine limit).finish between = .error cause := hbetween
    rw [readAll, hrun, Machine.run, herror]
    rfl
  | ok v =>
    exfalso
    rcases finish_eq_ok hbetween with rfl | hnumber
    · -- behind a value outside all brackets the reader does not go on
      have hstop : (valueMachine limit).step (.afterValue v []) c = .stop v := rfl
      rw [Machine.feed, hstop] at hmore
      cases hmore
    · obtain ⟨n, hn⟩ := finish_topNumber (feed_topNumber hnumber hmore) hfinish
      cases hn

end

/-- A payload that is no whole list yet is refused for want of more, or for a number. -/
theorem parseLinks_front {payload begun : String} {links : List Link} (h : parseLinks payload = .ok links)
    (hlast : payload.toList.getLast? = some ']') (hfront : begun.toList <+: payload.toList)
    (hne : begun ≠ payload) :
    ∃ error, parseLinks begun = .error (.unreadable error) ∧
      ((IsEndMessage error.cause.message ∧ error.position = .after (octets begun.toList)) ∨
        error.cause.message = "number out of range") := by
  obtain ⟨items, htext, -⟩ := parseLinks_eq_ok_iff.mp h
  have hread := readAll_of_isText htext
  obtain ⟨behind, hbehind⟩ := hfront
  cases behind with
  | nil =>
    rw [List.append_nil] at hbehind
    exact absurd (String.toList_inj.mp hbehind) hne
  | cons c more =>
    rw [← hbehind] at hread hlast
    obtain ⟨cause, herror, hcause⟩ := readAll_front hread hlast
    have hdecode : decode (readValue depthLimit) begun = .error ⟨cause, .after (octets begun.toList)⟩ := by
      have hunseen : Fault.unseen ⟨cause, 0⟩ = 0 := rfl
      rw [decode, herror, ← seen_of_unseen_eq_zero hunseen begun.toList]
      rfl
    refine ⟨⟨cause, .after (octets begun.toList)⟩, by rw [parseLinks, hdecode], ?_⟩
    rcases hcause with hend | hnumber
    · exact .inl ⟨isEndMessage_iff.mpr hend, rfl⟩
    · exact .inr (by rw [hnumber]; rfl)

/-! ## 2. Typing -/

/-- The beginning of a payload, by its length. -/
def begunAt (payload : String) (k : Nat) : String :=
  String.ofList (payload.toList.take k)

/-- The steps in which a payload is typed, one character after the other. -/
def typing (payload : String) : List (List String) :=
  (List.range payload.toList.length).map fun k => [begunAt payload (k + 1)]

theorem begunAt_length (payload : String) : begunAt payload payload.toList.length = payload := by
  rw [begunAt, List.take_length, String.ofList_toList]

theorem front_begunAt (payload : String) (k : Nat) : (begunAt payload k).toList <+: payload.toList := by
  rw [begunAt, String.toList_ofList]
  exact List.take_prefix k _

theorem begunAt_ne {payload : String} {k : Nat} (h : k < payload.toList.length) :
    begunAt payload k ≠ payload := by
  intro heq
  have hlength := congrArg (fun s : String => s.toList.length) heq
  simp only [begunAt, String.toList_ofList, List.length_take] at hlength
  omega

/-- What comes later does not change what was there. -/
theorem payloadAt_append (steps later : List (List String)) {k : Nat} (h : k ≤ steps.length) :
    payloadAt (steps ++ later) k = payloadAt steps k := by
  induction k with
  | zero => rfl
  | succ k ih => rw [payloadAt, payloadAt, List.getElem?_append_left h, ih (Nat.le_of_succ_le h)]

theorem linksAt_append (steps later : List (List String)) {k : Nat} (h : k ≤ steps.length) :
    linksAt (steps ++ later) k = linksAt steps k := by
  induction k with
  | zero => rfl
  | succ k ih => rw [linksAt, linksAt, payloadAt_append steps later h, ih (Nat.le_of_succ_le h)]

/-- The payload while it is being typed. -/
theorem payloadAt_typing (steps : List (List String)) {payload : String} {k : Nat} (hpos : 0 < k)
    (h : k ≤ payload.toList.length) :
    payloadAt (steps ++ typing payload) (steps.length + k) = begunAt payload k := by
  obtain ⟨k, rfl⟩ : ∃ j, k = j + 1 := ⟨k - 1, by omega⟩
  have hstep : (steps ++ typing payload)[steps.length + k]? = some [begunAt payload (k + 1)] := by
    rw [List.getElem?_append_right (Nat.le_add_right _ _), Nat.add_sub_cancel_left, typing, List.getElem?_map,
      List.getElem?_range (by omega), Option.map_some]
  rw [← Nat.add_assoc, payloadAt, hstep]
  rfl

theorem length_typing (payload : String) : (typing payload).length = payload.toList.length := by
  rw [typing, List.length_map, List.length_range]

/-- The rows stay until the last character. -/
theorem linksAt_typing {payload : String} {links : List Link} (h : parseLinks payload = .ok links)
    (hlast : payload.toList.getLast? = some ']') (steps : List (List String)) {k : Nat}
    (hk : k < payload.toList.length) :
    linksAt (steps ++ typing payload) (steps.length + k) = linksAt steps steps.length := by
  have herrors : ∀ i, steps.length < i → i ≤ steps.length + k →
      ∃ rejection, parseLinks (payloadAt (steps ++ typing payload) i) = .error rejection := by
    intro i hi hik
    obtain ⟨j, rfl⟩ : ∃ j, i = steps.length + j := ⟨i - steps.length, by omega⟩
    obtain ⟨error, herror, -⟩ := parseLinks_front h hlast (front_begunAt payload j) (begunAt_ne (by omega))
    rw [payloadAt_typing steps (by omega) (by omega)]
    exact ⟨_, herror⟩
  rw [linksAt_of_errors (Nat.le_add_right _ _) herrors, linksAt_append steps _ (Nat.le_refl _)]

/-- Behind the first entry the log is told of changes. -/
theorem logAt_of_pos (steps : List (List String)) {k : Nat} (h : 0 < k) :
    logAt steps k = logOfChange (linksAt steps (k - 1)) (linksAt steps k) := by
  have hzero : k ≠ 0 := Nat.ne_of_gt h
  simp [logAt, logOfChange, hzero]

theorem logOfChange_self (links : List Link) : logOfChange links links = [] :=
  if_neg fun h => h rfl

/-- **No list is taken early.** What comes before the last character of a payload that ends in the bracket of
    its list is refused, at its end, for want of more, or for a number that is too large so far. So on any page
    the rows stay as they are while such a payload is typed, and with the last character they are its links. -/
theorem Inspector.run_typing {payload : String} {links : List Link} (h : parseLinks payload = .ok links)
    (hlast : payload.toList.getLast? = some ']') :
    (∀ begun : String, begun.toList <+: payload.toList → begun ≠ payload →
      ∃ error, parseLinks begun = .error (.unreadable error) ∧
        ((IsEndMessage error.cause.message ∧ error.position = .after (octets begun.toList)) ∨
          error.cause.message = "number out of range")) ∧
    ∀ steps : List (List String),
      (Inspector.run (steps ++ typing payload))[steps.length]? =
        some ⟨logAt steps steps.length,
          inspectorText (payloadAt steps steps.length) (linksAt steps steps.length)⟩ ∧
      (∀ k, 0 < k → k < payload.toList.length →
        (Inspector.run (steps ++ typing payload))[steps.length + k]? =
          some ⟨[], inspectorText (begunAt payload k) (linksAt steps steps.length)⟩) ∧
      (Inspector.run (steps ++ typing payload))[steps.length + payload.toList.length]? =
        some ⟨logOfChange (linksAt steps steps.length) links, inspectorText payload links⟩ := by
  refine ⟨fun begun hfront hne => parseLinks_front h hlast hfront hne, fun steps => ?_⟩
  have hlength : (steps ++ typing payload).length = steps.length + payload.toList.length := by
    rw [List.length_append, length_typing]
  have hpos : 0 < payload.toList.length := by
    cases hp : payload.toList with
    | nil => rw [hp] at hlast; cases hlast
    | cons c rest => exact Nat.succ_pos _
  refine ⟨?_, ?_, ?_⟩
  · have hpayload := payloadAt_append steps (typing payload) (Nat.le_refl _)
    have hlinks := linksAt_append steps (typing payload) (Nat.le_refl _)
    have hbefore := linksAt_append steps (typing payload) (Nat.sub_le steps.length 1)
    rw [getElem?_run (by omega), hpayload, hlinks, logAt, hlinks, hbefore]
    rfl
  · intro k hk hlt
    have hnow := linksAt_typing h hlast steps hlt
    have hbefore := linksAt_typing h hlast steps (Nat.lt_of_le_of_lt (Nat.sub_le k 1) hlt)
    have hprev : steps.length + k - 1 = steps.length + (k - 1) := by omega
    have hlog : logAt (steps ++ typing payload) (steps.length + k) = [] := by
      rw [logAt_of_pos _ (by omega), hprev, hnow, hbefore, logOfChange_self]
    rw [getElem?_run (by omega), hlog, hnow, payloadAt_typing steps hk (Nat.le_of_lt hlt)]
  · have hpayload : payloadAt (steps ++ typing payload) (steps.length + payload.toList.length) = payload := by
      rw [payloadAt_typing steps hpos (Nat.le_refl _), begunAt_length]
    have hprev : steps.length + payload.toList.length =
        steps.length + (payload.toList.length - 1) + 1 := by omega
    have hbefore := linksAt_typing h hlast steps (Nat.sub_lt hpos Nat.one_pos)
    have hnow : linksAt (steps ++ typing payload) (steps.length + payload.toList.length) = links := by
      rw [hprev, linksAt, ← hprev, hpayload, h]
    have hsub : steps.length + payload.toList.length - 1 = steps.length + (payload.toList.length - 1) := by
      omega
    have hlog : logAt (steps ++ typing payload) (steps.length + payload.toList.length) =
        logOfChange (linksAt steps steps.length) links := by
      rw [logAt_of_pos _ (by omega), hsub, hnow, hbefore]
    rw [getElem?_run (by omega), hlog, hnow, hpayload]

/-- A payload with one link, whose kind is a single character behind two escapes. -/
def pairPayload : String :=
  "[\x7b\"type\":\"\\ud83d\\ude00\",\"n\":10\x7d]"

/-- The payload is typed where another one has been refused. Cut inside a text, an escape, the pair of escapes or
    the number it is refused at its end, and the rows of the new page stay until its own one is shown. -/
theorem Inspector.run_typing_pair :
    parseLinks pairPayload = .ok [⟨"😀", "", ""⟩] ∧ pairPayload.toList.getLast? = some ']' ∧
      (∀ k ∈ [10, 14, 16, 29], ∃ error, parseLinks (begunAt pairPayload k) = .error (.unreadable error) ∧
        ((IsEndMessage error.cause.message ∧ error.position = .after (octets (begunAt pairPayload k).toList)) ∨
          error.cause.message = "number out of range")) ∧
      (Inspector.run ([["oops"]] ++ typing pairPayload))[1 + 14]? =
        some ⟨[], pageText sampleLinks
          (refusedText "Parse error: EOF while parsing a string at line 1 column 14")⟩ ∧
      (Inspector.run ([["oops"]] ++ typing pairPayload))[1 + 29]? =
        some ⟨[], pageText sampleLinks
          (refusedText "Parse error: EOF while parsing an object at line 1 column 29")⟩ ∧
      (Inspector.run ([["oops"]] ++ typing pairPayload))[1 + 32]? =
        some ⟨logInputs ⟨"Source", "Target", [⟨"😀", "", ""⟩]⟩, pageText [⟨"😀", "", ""⟩] "<p>1 links</p>"⟩ := by
  have hlength : pairPayload.toList.length = 32 := by
    rw [pairPayload, String.toList_ofList]
    rfl
  have hlast : pairPayload.toList.getLast? = some ']' := by
    rw [pairPayload, String.toList_ofList]
    rfl
  have hlink : parseLinks pairPayload = .ok [⟨"😀", "", ""⟩] := by
    have hread : readAll (readValue depthLimit) pairPayload.toList =
        .ok (.list [.object [("type", .text "😀"), ("n", .number (.integer 10))]]) := by
      rw [pairPayload, String.toList_ofList]
      rfl
    rw [parseLinks, decode, hread]
    rfl
  have hescape : parseLinks (begunAt pairPayload 14) = .error (.unreadable ⟨.endInText, ⟨1, 14⟩⟩) := by
    rw [begunAt, pairPayload, String.toList_ofList]
    rfl
  have hnumber : parseLinks (begunAt pairPayload 29) = .error (.unreadable ⟨.endInObject, ⟨1, 29⟩⟩) := by
    rw [begunAt, pairPayload, String.toList_ofList]
    rfl
  have hbefore : linksAt [["oops"]] 1 = sampleLinks := by
    have hword : parseLinks (payloadAt [["oops"]] 1) = .error (.unreadable ⟨.expectedValue, ⟨1, 1⟩⟩) := rfl
    rw [linksAt_succ_of_error hword, linksAt_zero_eq]
  obtain ⟨hfront, hrun⟩ := Inspector.run_typing hlink hlast
  obtain ⟨-, hbegun, hend⟩ := hrun [["oops"]]
  simp only [hlength, List.length_singleton, hbefore, inspectorText] at hbegun hend
  refine ⟨hlink, hlast, fun k hk => ?_, ?_, ?_, ?_⟩
  · have hlt : k < pairPayload.toList.length := by
      simp only [List.mem_cons, List.not_mem_nil, or_false] at hk
      omega
    exact hfront _ (front_begunAt pairPayload k) (begunAt_ne hlt)
  · rw [hbegun 14 (by decide) (by decide), hescape]
    rfl
  · rw [hbegun 29 (by decide) (by decide), hnumber]
    rfl
  · have hone : statusText 1 (.ok [⟨"😀", "", ""⟩]) = "<p>1 links</p>" := by decide
    rw [hend, hlink, hone, logOfChange, if_pos (by simp [sampleLinks])]

end LinkPane
