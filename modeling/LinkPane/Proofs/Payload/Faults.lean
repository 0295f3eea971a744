import LinkPane.Proofs.Json.Faults
import LinkPane.Proofs.Payload.Language

/-!
# Where payloads are refused

A refusal with a place names a beginning of the payload: all that was looked at before it came about. What
stands behind that has no part in it.

* `LastLine` -- the octets of a text behind its last line feed;
* `IsEndMessage` -- a message that says that the text has ended too early;
* `seen_append` -- the octets that a refusal of a character has looked at;
* **`parseLinks_error_decided`** -- the place of every refusal, and the payloads that share it.
-/

namespace LinkPane

open Json Text

/-! ## 1. Places -/

/-- `line` is what comes behind the last line feed of `text`; all of it, if there is none. -/
def LastLine (text line : List UInt8) : Prop :=
  ∃ front, text = front ++ line ∧ lineFeed ∉ line ∧ (front = [] ∨ front.getLast? = some lineFeed)

theorem lastLine_column (text : List UInt8) :
    ∃ line, LastLine text line ∧ (Position.after text).column = line.length := by
  have hsplit : text.reverse.takeWhile (· != lineFeed) ++ text.reverse.dropWhile (· != lineFeed) =
      text.reverse := List.takeWhile_append_dropWhile
  refine ⟨(text.reverse.takeWhile (· != lineFeed)).reverse,
    ⟨(text.reverse.dropWhile (· != lineFeed)).reverse, ?_, ?_, ?_⟩, by rw [Position.after, List.length_reverse]⟩
  · rw [← List.reverse_append, hsplit, List.reverse_reverse]
  · intro hmem
    have hne := List.all_eq_true.mp List.all_takeWhile _ (List.mem_reverse.mp hmem)
    simp at hne
  · cases hrest : text.reverse.dropWhile (· != lineFeed) with
    | nil => exact .inl rfl
    | cons b rest =>
      have hhead := List.head?_dropWhile_not (· != lineFeed) text.reverse
      rw [hrest] at hhead
      have hb : b = lineFeed := by simpa using hhead
      exact .inr (by rw [List.reverse_cons, List.getLast?_concat, hb])

/-! ## 2. Messages -/

/-- The message says that the text has ended too early. -/
def IsEndMessage (message : String) : Prop :=
  ∃ what, message = "EOF while parsing " ++ what

/-- Only the messages of the four ends begin as they do. -/
theorem head?_message {cause : Cause} (h : cause.isEnd = false) : cause.message.toList.head? ≠ some 'E' := by
  cases cause with
  | endInValue => cases h
  | endInList => cases h
  | endInObject => cases h
  | endInText => cases h
  | _ =>
    -- unfolded by its equations the table of messages would be compared as a whole
    delta Cause.message
    simp

theorem isEndMessage_iff {cause : Cause} : IsEndMessage cause.message ↔ cause.isEnd = true := by
  constructor
  · rintro ⟨what, h⟩
    cases hend : cause.isEnd with
    | true => rfl
    | false =>
      refine absurd ?_ (head?_message hend)
      rw [h]
      simp
  · intro h
    cases cause with
    | endInValue => exact ⟨"a value", rfl⟩
    | endInList => exact ⟨"a list", rfl⟩
    | endInObject => exact ⟨"an object", rfl⟩
    | endInText => exact ⟨"a string", rfl⟩
    | _ => cases h

/-! ## 3. What was looked at -/

variable {payload : String} {error : Json.Error}

theorem decode_eq_error {read : Reader Value} (h : decode read payload = .error error) :
    ∃ fault, readAll read payload.toList = .error fault ∧
      error = ⟨fault.cause, fault.position payload.toList⟩ := by
  unfold decode at h
  cases hread : readAll read payload.toList with
  | ok value => rw [hread] at h; cases h
  | error fault =>
    rw [hread] at h
    cases h
    exact ⟨fault, rfl, rfl⟩

theorem parseLinks_eq_unreadable (h : parseLinks payload = .error (.unreadable error)) :
    decode (readValue depthLimit) payload = .error error := by
  unfold parseLinks at h
  split at h
  · rename_i found hdecode
    cases h
    exact hdecode
  · split at h <;> cases h

/-- The octets that a refusal of `c` has looked at: those of the text before it, and the first of its own. -/
theorem seen_append {cause : Cause} {seen : Nat} {c : Char} (h : seen ≤ c.utf8Size) (read rest : List Char) :
    (Fault.after cause seen (c :: rest)).seen (read ++ c :: rest) =
      octets read ++ (octets (c :: rest)).take seen := by
  have hle : seen ≤ size (c :: rest) := by
    rw [size_cons]
    omega
  have hcount : size (read ++ c :: rest) - (size (c :: rest) - seen) = (octets read).length + seen := by
    rw [size_append, size, size]
    have hlength : seen ≤ (octets (c :: rest)).length := hle
    omega
  rw [Fault.seen, Fault.after, hcount, octets_append, List.take_length_add_append]

/-- The octets looked at are all of the payload where none are left. -/
theorem seen_of_unseen_eq_zero {fault : Fault} (h : fault.unseen = 0) (text : List Char) :
    fault.seen text = octets text := by
  rw [Fault.seen, h, Nat.sub_zero, size, List.take_length]

/-- **A refusal of a character is shared** by all payloads that begin with the octets it has looked at. -/
theorem decode_of_refusedAt {read rest : List Char} {c : Char} {cause : Cause} {seen : Nat}
    (h : RefusedAt depthLimit read c cause seen) (hlook : 1 ≤ seen)
    (hp : octets read ++ (octets (c :: rest)).take seen <+: octets payload.toList) :
    decode (readValue depthLimit) payload =
      .error ⟨cause, .after (octets read ++ (octets (c :: rest)).take seen)⟩ := by
  obtain ⟨more, hmore⟩ := hp
  rw [List.append_assoc] at hmore
  obtain ⟨behind, hsplit, hbehind⟩ := octets_prefix hmore.symm
  obtain ⟨d, rest', rfl, halike⟩ := alike_of_prefix hlook ⟨more, hbehind.symm⟩
  have hinside : seen ≤ d.utf8Size := halike.size_eq ▸ h.looked.inside
  -- the other character has the same octets as far as they were looked at
  have hlength : ((octets (c :: rest)).take seen).length = seen := by
    have hle : seen ≤ (octets (c :: rest)).length := by
      have hsize := size_cons c rest
      have hin := h.looked.inside
      rw [size] at hsize
      omega
    exact List.length_take_of_le hle
  have hsame : (octets (d :: rest')).take seen = (octets (c :: rest)).take seen := by
    rw [hbehind, List.take_left' hlength]
  rw [decode, hsplit, h.refuses halike rest']
  show Except.error (Json.Error.mk cause (.after _)) = _
  rw [seen_append hinside, hsame]

/-- **What decides a refusal, and where it is**: the place is the end of a beginning of the payload, by its line
    feeds and the octets behind the last of them. Where the text has ended too early that is the whole payload;
    in all other cases, but for numbers that are too large, all payloads with that beginning are refused alike. -/
theorem parseLinks_error_decided (h : parseLinks payload = .error (.unreadable error)) :
    ∃ begin, begin <+: octets payload.toList ∧
      error.position.line = 1 + begin.count lineFeed ∧
      (∃ line, LastLine begin line ∧ error.position.column = line.length) ∧
      (IsEndMessage error.cause.message → begin = octets payload.toList) ∧
      (¬ IsEndMessage error.cause.message → error.cause.message ≠ "number out of range" →
        ∀ other : String, begin <+: octets other.toList → parseLinks other = .error (.unreadable error)) := by
  obtain ⟨fault, hread, rfl⟩ := decode_eq_error (parseLinks_eq_unreadable h)
  refine ⟨fault.seen payload.toList, List.take_prefix _ _, rfl, lastLine_column _, ?_, ?_⟩
  · intro hmessage
    rcases refused_of_readAll hread with ⟨hunseen, -⟩ | ⟨read, c, rest, seen, -, -, hat⟩
    · exact seen_of_unseen_eq_zero hunseen _
    · have hend : fault.cause.isEnd = true := isEndMessage_iff.mp hmessage
      rw [hat.looked.notEnd] at hend
      cases hend
  · intro hmessage hrange other hother
    rcases refused_of_readAll hread with ⟨-, hend | hnumber⟩ | ⟨read, c, rest, seen, htext, hfault, hat⟩
    · exact absurd (isEndMessage_iff.mpr hend) hmessage
    · rw [hnumber] at hrange
      exact absurd rfl hrange
    · have hlook : 1 ≤ seen := hat.looked.looked fun hcause => hrange (by rw [hcause]; rfl)
      have hseen : fault.seen payload.toList = octets read ++ (octets (c :: rest)).take seen := by
        rw [hfault, htext]
        exact seen_append hat.looked.inside read rest
      rw [hseen] at hother
      rw [parseLinks, decode_of_refusedAt hat hlook hother, Fault.position, hseen]

/-- A letter of two octets where a value is wanted: only the first octet is looked at, so the refusal is that of
    all payloads that go on with another letter of this kind. -/
theorem parseLinks_error_decided_cut :
    parseLinks "[\né" = .error (.unreadable ⟨.expectedValue, ⟨2, 1⟩⟩) ∧
      ∃ begin, begin <+: octets "[\né".toList ∧ 2 = 1 + begin.count lineFeed ∧
        ∀ other : String, begin <+: octets other.toList →
          parseLinks other = .error (.unreadable ⟨.expectedValue, ⟨2, 1⟩⟩) := by
  have h : parseLinks "[\né" = .error (.unreadable ⟨.expectedValue, ⟨2, 1⟩⟩) := by
    have hread : readAll (readValue depthLimit) "[\né".toList = .error ⟨.expectedValue, 1⟩ := by
      rw [String.toList_ofList]
      rfl
    rw [parseLinks, decode, hread]
    rw [String.toList_ofList]
    rfl
  obtain ⟨begin, hbegin, hline, -, -, hshared⟩ := parseLinks_error_decided h
  have hmessage : ¬ IsEndMessage (Cause.expectedValue.message) := fun hend => by
    cases isEndMessage_iff.mp hend
  have hrange : Cause.expectedValue.message ≠ "number out of range" := by
    delta Cause.message
    decide
  exact ⟨h, begin, hbegin, hline, hshared hmessage hrange⟩

end LinkPane
