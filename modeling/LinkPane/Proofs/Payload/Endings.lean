import LinkPane.Proofs.Payload.Direct

/-!
# Where a value ends

A member that is no field is skipped, and all else in a payload is read as a value. If the two did not agree on
where a value ends, a member that is skipped would swallow the next one, or leave a part of itself to it:

* `FullReader` -- the readers that make a value of what they read: that of payloads, and that of the fields of
  links;
* `StopsAt` -- where in a text a reader stops;
* `FullReader.endsAlike` -- each of them and the skipper in step, over a whole text;
* **`stops_alike`** -- what is read is skipped up to the same place; what is skipped is read up to the same place,
  or is refused for one of four causes.
-/

namespace LinkPane

open Json

section

variable {α : Type} {read : Reader α}

/-! ## 1. Readers and places -/

/-- The readers that make something of all they read. -/
inductive FullReader : {α : Type} → Reader α → Prop
  /-- The reader of payloads, with any limit on the open brackets. -/
  | payload (limit : Nat) : FullReader (readValue limit)
  /-- The reader of the fields of a link. -/
  | field : FullReader readLeniently

/-- Set on `here`, with `before` in front of it, the reader reads `x` and stops behind `place` octets of the whole
    text. -/
def StopsAt (read : Reader α) (before here : List Char) (x : α) (place : Nat) : Prop :=
  ∃ taken rest, here = taken ++ rest ∧ read here = .ok (x, rest) ∧ place = Text.size (before ++ taken)

/-! ## 2. Two readers of one text -/

/-- Every full reader ends where the skipper does. -/
theorem FullReader.endsAlike (h : FullReader read) (text : List Char) :
    EndsAlike (read text) (skipValue text) := by
  cases h with
  | payload limit => exact State.run_endsAlike limit (.beforeValue []) text
  | field => exact (State.run_endsAlike (depthLimit - 1) (.beforeValue []) text).map leniently

/-- The skipper stops somewhere in the text. -/
theorem exists_taken_of_skipValue {here rest : List Char} (h : skipValue here = .ok ((), rest)) :
    ∃ taken, here = taken ++ rest := by
  obtain ⟨taken, _, htext, -, -⟩ := skipMachine.fed_of_run h
  exact ⟨taken, htext⟩

/-- **Reading and skipping agree on where a value ends**, at every place of every text. What is read is skipped up
    to the same place; what is skipped is read up to the same place, or is refused as a number that is too large,
    for too many open brackets or for a code unit without its pair, and for nothing else. -/
theorem stops_alike (h : FullReader read) (before here : List Char) :
    (∀ x rest, read here = .ok (x, rest) → ∃ place, StopsAt read before here x place) ∧
    (∀ x place, StopsAt read before here x place → StopsAt skipValue before here () place) ∧
    ∀ place, StopsAt skipValue before here () place →
      (∃ x, StopsAt read before here x place) ∨
      ∃ fault, read here = .error fault ∧ fault.cause.message ∈ strictMessages := by
  have hends := h.endsAlike here
  refine ⟨fun x rest hread => ?_, ?_, ?_⟩
  · rw [hread] at hends
    generalize hskip : skipValue here = skips at hends
    cases hends with
    | stop =>
      obtain ⟨taken, htext⟩ := exists_taken_of_skipValue hskip
      exact ⟨_, taken, rest, htext, hread, rfl⟩
  · rintro x place ⟨taken, rest, htext, hread, hplace⟩
    rw [hread] at hends
    generalize hskip : skipValue here = skips at hends
    cases hends with
    | stop => exact ⟨taken, rest, htext, hskip, hplace⟩
  · rintro place ⟨taken, rest, htext, hskip, hplace⟩
    rw [hskip] at hends
    generalize hread : read here = reads at hends
    cases hends with
    | stop => exact .inl ⟨_, taken, rest, htext, hread, hplace⟩
    | strict hstrict => exact .inr ⟨_, rfl, message_mem_of_isStrict hstrict⟩

end

/-- A code unit without its pair, as the value of a member: it is skipped up to the bracket behind it, and is
    refused as the field of a link. -/
theorem stops_alike_lone :
    let before := ['{', '"', 'x', '"', ':']
    let here := ['"', '\\', 'u', 'd', 'c', '0', '0', '"', '}']
    FullReader readLeniently ∧ StopsAt skipValue before here () 13 ∧
      ∃ fault, readLeniently here = .error fault ∧ fault.cause.message ∈ strictMessages := by
  intro before here
  have hskip : StopsAt skipValue before here () 13 :=
    ⟨['"', '\\', 'u', 'd', 'c', '0', '0', '"'], ['}'], rfl, rfl, by decide⟩
  refine ⟨.field, hskip, ?_⟩
  rcases (stops_alike .field before here).2.2 13 hskip with ⟨x, _, _, -, hread, -⟩ | hfault
  · cases hread
  · exact hfault

end LinkPane
