import LinkPane.Proofs.Json.FirstFault
import LinkPane.Proofs.Theme.Members

/-!
# What a refused theme names

* **`decode_firstFault`** -- a theme, or a style, that is refused is refused for the first of its members with which
  something is wrong: a field that was given before, or a value that does not decode on its own, in which case the
  two have one message. Nothing behind that member has a part in it. So a style inside a theme is refused for its
  own first fault, and the theme with it.
-/

namespace LinkPane

open Json

section

variable {σ : Type} {shape : Shape σ}

/-- **A refused theme names its first fault.** There is a first member that is a field given before, or a field
    whose value does not decode on its own. In the first case the message is that the field is duplicate, in the
    second the one of that value alone. Every text that begins with these members is refused with the same
    message, whatever is behind them; and a style that is at fault is refused for the first fault of its own. -/
theorem decode_firstFault (hshape : Styled shape) {payload : String} {members : List (String × List Char)}
    (h : ObjectOf payload.toList members) {error : Json.Error} (herror : decode shape.read payload = .error error) :
    ∃ front name form, FirstFault shape members front (name, form) error.cause ∧
      (name ∈ front.map Prod.fst → error.cause.message = "duplicate field `" ++ name ++ "`") ∧
      (name ∉ front.map Prod.fst → ∃ field ∈ shape.fields, field.name = name ∧
        ∃ alone, decode field.read (String.ofList form) = .error alone ∧
          error.cause.message = alone.cause.message) ∧
      OpensObject payload.toList (front ++ [(name, form)]) ∧
      (∀ payload', OpensObject (String.toList payload') (front ++ [(name, form)]) →
        ∃ error', decode shape.read payload' = .error error' ∧
          error'.cause.message = error.cause.message) ∧
      ∀ {τ : Type} (style : Shape τ) (get : σ → τ) (set : τ → σ → σ), Styled style →
        style.toField name get set ∈ shape.fields → name ∉ front.map Prod.fst → ∀ inner, ObjectOf form inner →
          ∃ front' member', FirstFault style inner front' member' error.cause := by
  obtain ⟨front, ⟨name, form⟩, hfirst⟩ := exists_firstFault hshape.lawful hshape.steady h herror
  refine ⟨front, name, form, hfirst, fun given => ?_, fun new => ?_, ?_, fun payload' hopens => ?_,
    fun style get set hstyle hf new inner hinner => ?_⟩
  · rw [hfirst.fault.cause_of_given given]
    rfl
  · obtain ⟨field, hf, hname, alone, hread, hcause⟩ := hfirst.fault.alone_of_new new
    exact ⟨field, hf, hname, alone, hread, congrArg Cause.message hcause.symm⟩
  · obtain ⟨back, hmembers⟩ := hfirst.begins
    exact (hmembers ▸ h).opens (by simp)
  · obtain ⟨error', herror', hcause⟩ :=
      decode_of_firstFault hshape.lawful hshape.steady hopens hfirst.sound hfirst.fault
    exact ⟨error', herror', congrArg Cause.message hcause⟩
  · obtain ⟨field, ho, hname, alone, hread, hcause⟩ := hfirst.fault.alone_of_new new
    obtain rfl := hshape.lawful.unique hf ho hname.symm
    have htext : ObjectOf (String.ofList form).toList inner := by rwa [String.toList_ofList]
    exact hcause ▸ exists_firstFault hstyle.lawful hstyle.steady htext hread

end

/-- A pane with a radius that is given twice, in front of a title that is no text: the theme is refused for the
    radius. -/
theorem decode_firstFault_pane :
    let null := ['n', 'u', 'l', 'l']
    let pane := writeObject [("radius", writeText "1px"), ("radius", null)]
    let members := [("pane", pane), ("title", null)]
    let payload := String.ofList (writeObject members)
    ObjectOf payload.toList members ∧
      ∃ error, decode Theme.shape.read payload = .error error ∧
        error.cause.message = "duplicate field `radius`" ∧
        ∃ form, FirstFault Theme.shape members [] ("pane", form) error.cause := by
  intro null pane members payload
  have hnull : Wellformed null (.value .scalar) := .null
  have hpane : ∃ parts, Wellformed pane (.value parts) := by
    refine ⟨_, wellformed_writeObject ?_⟩
    simp only [List.forall_mem_cons]
    exact ⟨⟨_, (quoted_writeText _).wellformed⟩, ⟨_, hnull⟩, fun _ hmem => absurd hmem List.not_mem_nil⟩
  have hobject : ObjectOf payload.toList members := by
    rw [String.toList_ofList]
    refine objectOf_writeObject ?_
    simp only [members, List.forall_mem_cons]
    exact ⟨hpane, ⟨_, hnull⟩, fun _ hmem => absurd hmem List.not_mem_nil⟩
  have hdecode : ∃ error, decode Theme.shape.read payload = .error error ∧ error.cause = .duplicateField "radius" := by
    rw [decode, String.toList_ofList]
    exact ⟨_, rfl, rfl⟩
  obtain ⟨error, herror, hcause⟩ := hdecode
  obtain ⟨front, name, form, hfirst, -⟩ := decode_firstFault .theme hobject herror
  refine ⟨hobject, error, herror, congrArg Cause.message hcause, form, ?_⟩
  obtain ⟨back, hsplit⟩ := hfirst.begins
  cases front with
  | nil =>
    obtain ⟨rfl, rfl⟩ := Prod.mk.inj (List.cons.inj hsplit).1
    exact hfirst
  | cons first front =>
    -- the pane is at fault itself, so it is not in front of the first fault
    obtain ⟨rfl, -⟩ := List.cons.inj hsplit
    have hfield : ∃ field ∈ Theme.shape.fields, field.name = "pane" ∧
        ∃ alone, decode field.read (String.ofList pane) = .error alone := by
      refine ⟨_, List.mem_cons_of_mem _ (List.mem_cons_of_mem _ List.mem_cons_self), rfl, ?_⟩
      rw [decode, String.toList_ofList]
      exact ⟨_, rfl⟩
    obtain ⟨field, hf, hname, alone, hread⟩ := hfield
    exact absurd (.unreadable hf hname List.not_mem_nil hread) (hfirst.sound [] _ front rfl _)

end LinkPane
