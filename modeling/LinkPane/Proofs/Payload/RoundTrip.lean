import LinkPane.Proofs.Json.Written
import LinkPane.Proofs.Payload.Lenient

/-!
# Links that are written and read

* `Link.toValue` -- the value that a link is written as;
* `Link.form_write`, `isText_writeLinks` -- what is written of links is a text of their values;
* `Link.ofValue_toValue` -- such a value is the link again;
* **`parseLinks_writeLinks`** -- every list of links is read as it was written.
-/

namespace LinkPane

open Json

/-- The value that a link is written as. -/
def Link.toValue (link : Link) : Value :=
  .object (Link.parts.map fun part => (part.name, .text (part.get link)))

theorem Link.write_eq (link : Link) :
    link.write = writeObject (Link.parts.map fun part => (part.name, writeText (part.get link))) := by
  rw [Link.write, Shape.write, Link.shape, List.map_map]
  rfl

theorem Link.form_write {room : Nat} (link : Link) : Form (room + 1) link.write (.value link.toValue) := by
  have hpart : ∀ part : Link.Part, Form room (writeText (part.get link)) (.value (.text (part.get link))) :=
    fun part => form_writeText (part.get link)
  rw [Link.write_eq, Link.toValue]
  exact form_writeObject hpart Link.parts

/-- Two brackets are open at most. -/
theorem isText_writeLinks (links : List Link) :
    IsText depthLimit (writeLinks links) (.list (links.map Link.toValue)) := by
  have hform : Form depthLimit (writeLinks links) (.value (.list (links.map Link.toValue))) :=
    form_writeList Link.form_write links
  exact ⟨[], writeLinks links, [], by simp, blank_nil, hform, blank_nil⟩

/-- Each of the three members is the last of its name. -/
theorem Link.ofValue_toValue (link : Link) : Link.ofValue link.toValue = link := by
  refine (linkOf_ofValue link.toValue).unique (.object (.text ?_) (.text ?_) (.text ?_))
  · exact ⟨[], [("source", .text link.source), ("target", .text link.target)], rfl, by simp⟩
  · exact ⟨[("type", .text link.kind)], [("target", .text link.target)], rfl, by simp⟩
  · exact ⟨[("type", .text link.kind), ("source", .text link.source)], [], rfl, by simp⟩

/-- **Every list of links is read as it was written**, whatever characters are in it. -/
theorem parseLinks_writeLinks (links : List Link) :
    parseLinks (String.ofList (writeLinks links)) = .ok links := by
  refine parseLinks_eq_ok_iff.mpr ⟨links.map Link.toValue, ?_, ?_⟩
  · rw [String.toList_ofList]
    exact isText_writeLinks links
  · rw [List.map_map]
    calc links.map (Link.ofValue ∘ Link.toValue)
      _ = links.map id := List.map_congr_left fun link _ => Link.ofValue_toValue link
      _ = links := List.map_id links

end LinkPane
