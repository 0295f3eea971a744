import LinkPane.Json.Scalar
import LinkPane.Proofs.Json.Lockstep

/-!
# What a reader makes of a value

What a reader of single values makes of a well-formed value does not depend on where the value stands: blanks
in front of it and anything behind it make no difference, and what is behind it is left. So the value has an
outcome of its own, the one that the reader has on its text alone:

* `told` -- a result less the place of its fault;
* `Bounded` -- what may stand behind a value;
* `outcome`, `Settles`, **`Steady`** -- the outcome of a text, and the readers for which it is the same
  wherever the text stands;
* **`steady_readValue`**, `settles_skipValue` -- the reader and the skipper of values are such;
* **`isStrict_of_readValue`** -- what the reader refuses of well-formed values it refuses for one of four causes;
* **`steady_readScalar`**, **`steady_readOption`**, **`steady_readVariant`** -- and so are the readers of values
  of one kind;
* **`Steady.decode_eq`** -- a whole text decodes to the outcome of the value in it.
-/

namespace LinkPane.Json

/-! ## 1. Results without places -/

/-- A result less the place of its fault. -/
def told {α : Type} (result : Except Fault α) : Except Cause α :=
  result.mapError Fault.cause

section

variable {α β : Type}

@[simp] theorem told_ok (x : α) : told (.ok x : Except Fault α) = .ok x := rfl

@[simp] theorem told_error (fault : Fault) : told (.error fault : Except Fault α) = .error fault.cause := rfl

theorem told_map (result : Except Fault α) (f : α → β) : told (result.map f) = (told result).map f := by
  cases result <;> rfl

theorem told_bind (result : Except Fault α) (f : α → Except Fault β) :
    told (result >>= f) = told result >>= fun x => told (f x) := by
  cases result <;> rfl

theorem told_eq_ok_iff {result : Except Fault α} {x : α} : told result = .ok x ↔ result = .ok x := by
  cases result <;> simp

theorem map_map {γ : Type} (x : Except Cause α) (f : α → β) (g : β → γ) :
    (x.map f).map g = x.map fun a => g (f a) := by
  cases x <;> rfl

/-- A map behind a bind is a bind with a map behind. -/
theorem bind_map {γ : Type} (x : Except Cause α) (f : α → Except Cause β) (g : β → γ) :
    (x >>= f).map g = x >>= fun a => (f a).map g := by
  cases x <;> rfl

/-- A bind behind a map reads what is mapped. -/
theorem map_bind {γ : Type} (x : Except Cause α) (f : α → β) (g : β → Except Cause γ) :
    x.map f >>= g = x >>= fun a => g (f a) := by
  cases x <;> rfl

end

/-! ## 2. Steady readers -/

/-- What may stand behind a value or a key. -/
def Bounded (rest : List Char) : Prop :=
  ∀ c, rest.head? = some c → Delimits c ∨ c = ':'

theorem bounded_of_blank {b : List Char} (hb : Blank b) : Bounded b := fun c hc =>
  .inl (.inl (isBlank_iff.mpr (hb c (List.mem_of_head? hc))))

/-- Blanks and then a delimiter or a colon. -/
theorem bounded_append {b : List Char} {c : Char} (hb : Blank b) (hc : Delimits c ∨ c = ':')
    (rest : List Char) : Bounded (b ++ c :: rest) := by
  intro d hd
  cases b with
  | nil => exact Option.some.inj hd ▸ hc
  | cons e b =>
    obtain rfl := Option.some.inj hd
    exact .inl (.inl (isBlank_iff.mpr (hb e List.mem_cons_self)))

/-- Blanks in front. -/
theorem Bounded.blank_append {b rest : List Char} (h : Bounded rest) (hb : Blank b) : Bounded (b ++ rest) := by
  intro c hc
  cases b with
  | nil => exact h c hc
  | cons d b => exact bounded_of_blank hb c hc

/-- No number goes on there. -/
theorem Bounded.ended {c : Char} {rest : List Char} (h : Bounded (c :: rest)) {place : Place}
    (hend : place.isEnd = true) : place.step c = .ended := by
  rcases h c rfl with hc | rfl
  · exact hc.ended hend
  · cases place <;> first | rfl | cases hend

section

variable {α : Type} {read : Reader α} {form : List Char} {parts : Parts} {result : Except Cause α}

/-- What a reader makes of a text alone. -/
def outcome (read : Reader α) (form : List Char) : Except Cause α :=
  (told (read form)).map Prod.fst

/-- The reader makes the same of the text wherever it stands, and leaves what is behind it. -/
def Settles (read : Reader α) (form : List Char) (result : Except Cause α) : Prop :=
  ∀ a rest, Blank a → Bounded rest → told (read (a ++ (form ++ rest))) = result.map fun x => (x, rest)

/-- **A steady reader**: it makes the same of a well-formed value wherever that stands. -/
def Steady (read : Reader α) : Prop :=
  ∀ form parts, Wellformed form (.value parts) → Settles read form (outcome read form)

theorem Settles.outcome_eq (h : Settles read form result) : outcome read form = result := by
  have hread := h [] [] blank_nil (bounded_of_blank blank_nil)
  rw [List.nil_append, List.append_nil] at hread
  rw [outcome, hread]
  cases result <;> rfl

theorem steady_of_settles
    (h : ∀ form parts, Wellformed form (.value parts) → ∃ result, Settles read form result) :
    Steady read := by
  intro form parts hform
  obtain ⟨result, hsettles⟩ := h form parts hform
  exact hsettles.outcome_eq ▸ hsettles

/-- Without blanks in front. -/
theorem Settles.front (h : Settles read form result) {rest : List Char} (hrest : Bounded rest) :
    told (read (form ++ rest)) = result.map fun x => (x, rest) :=
  h [] rest blank_nil hrest

/-- A whole text decodes to what is made of the value in it. -/
theorem Settles.decode_eq (h : Settles read form result) {payload : String} {a b : List Char}
    (hpayload : payload.toList = a ++ (form ++ b)) (ha : Blank a) (hb : Blank b) :
    (decode read payload).mapError Error.cause = result := by
  have hread := h a b ha (bounded_of_blank hb)
  rw [decode, readAll, hpayload]
  generalize read (a ++ (form ++ b)) = found at hread ⊢
  cases result with
  | error cause =>
    cases found with
    | ok x => cases hread
    | error fault =>
      obtain rfl : fault.cause = cause := Except.error.inj hread
      rfl
  | ok x =>
    have hfound : found = .ok (x, b) := told_eq_ok_iff.mp hread
    simp only [hfound, dropBlank_of_blank hb]
    rfl

theorem Settles.decode_ofList_eq (h : Settles read form result) :
    (decode read (String.ofList form)).mapError Error.cause = result :=
  h.decode_eq (by simp) blank_nil blank_nil

/-- A text that a reader refuses is not decoded, for the same cause. -/
theorem decode_of_told {payload : String} {cause : Cause} (h : told (read payload.toList) = .error cause) :
    ∃ error, decode read payload = .error error ∧ error.cause = cause := by
  cases hread : read payload.toList with
  | ok x =>
    rw [hread] at h
    cases h
  | error fault =>
    rw [hread] at h
    obtain rfl : fault.cause = cause := Except.error.inj h
    exact ⟨⟨fault.cause, fault.position payload.toList⟩, by rw [decode, readAll, hread]; rfl, rfl⟩

/-- **A whole text decodes to the outcome of the value in it.** -/
theorem Steady.decode_eq (h : Steady read) (hform : Wellformed form (.value parts)) {payload : String}
    {a b : List Char} (hpayload : payload.toList = a ++ (form ++ b)) (ha : Blank a) (hb : Blank b) :
    (decode read payload).mapError Error.cause = outcome read form :=
  (h form parts hform).decode_eq hpayload ha hb

theorem Steady.decode_eq_ok_iff (h : Steady read) (hform : Wellformed form (.value parts)) {payload : String}
    {a b : List Char} (hpayload : payload.toList = a ++ (form ++ b)) (ha : Blank a) (hb : Blank b) {x : α} :
    decode read payload = .ok x ↔ outcome read form = .ok x := by
  rw [← h.decode_eq hform hpayload ha hb]
  constructor
  · intro hdecode
    rw [hdecode]
    rfl
  · intro hcause
    cases hdecode : decode read payload with
    | ok y =>
      rw [hdecode] at hcause
      rw [Except.ok.inj hcause]
    | error error =>
      rw [hdecode] at hcause
      cases hcause

/-- A whole text is refused for the cause of the value in it. -/
theorem Steady.decode_error (h : Steady read) (hform : Wellformed form (.value parts)) {payload : String}
    {a b : List Char} (hpayload : payload.toList = a ++ (form ++ b)) (ha : Blank a) (hb : Blank b) {cause : Cause}
    (herror : outcome read form = .error cause) :
    ∃ error, decode read payload = .error error ∧ error.cause = cause := by
  rw [← h.decode_eq hform hpayload ha hb] at herror
  cases hdecode : decode read payload with
  | ok x =>
    rw [hdecode] at herror
    cases herror
  | error error =>
    rw [hdecode] at herror
    exact ⟨error, rfl, Except.error.inj herror⟩

/-- The text of the value alone. -/
theorem Steady.decode_ofList_eq_ok_iff (h : Steady read) (hform : Wellformed form (.value parts)) {x : α} :
    decode read (String.ofList form) = .ok x ↔ outcome read form = .ok x :=
  h.decode_eq_ok_iff hform (by simp) blank_nil blank_nil

theorem Steady.decode_ofList_error (h : Steady read) (hform : Wellformed form (.value parts)) {cause : Cause}
    (herror : outcome read form = .error cause) :
    ∃ error, decode read (String.ofList form) = .error error ∧ error.cause = cause :=
  h.decode_error hform (String.toList_ofList.trans (by simp)) blank_nil blank_nil herror

end

/-! ## 3. Values of any kind -/

/-- Behind a value outside all brackets the reader ends, whatever is there, and refuses a number only for a cause
    of its own. -/
theorem run_behind (limit : Nat) {s : State} (h : SkipBehind [] s.outline) :
    ∃ result : Except Cause Value, (∀ cause, result = .error cause → cause.isStrict = true) ∧
      ∀ rest, Bounded rest →
        told ((valueMachine limit).run s rest) = result.map fun v => (v, rest) := by
  generalize hs : s.outline = t at h
  cases h with
  | after =>
    cases s <;> simp only [State.outline, reduceCtorEq, SkipState.afterValue.injEq] at hs
    rename_i v frames
    obtain rfl : frames = [] := List.map_eq_nil_iff.mp hs
    refine ⟨.ok v, fun cause herror => ?_, fun rest _ => ?_⟩
    · cases herror
    · cases rest <;> rfl
  | @number place hend =>
    cases s <;> simp only [State.outline, reduceCtorEq, SkipState.inNumber.injEq] at hs
    rename_i d frames
    obtain ⟨rfl, hframes⟩ := hs
    obtain rfl : frames = [] := List.map_eq_nil_iff.mp hframes
    refine ⟨d.finish.map Value.number, fun cause herror => ?_, fun rest hrest => ?_⟩
    · cases hfinish : d.finish with
      | ok n =>
        rw [hfinish] at herror
        cases herror
      | error cause' =>
        rw [hfinish] at herror
        cases herror
        exact Digits.finish_isStrict hfinish
    · cases rest with
      | nil =>
        simp only [Machine.run, valueMachine, State.finish, hend, if_true]
        cases d.finish <;> rfl
      | cons c rest =>
        simp only [Machine.run, valueMachine, State.step, Digits.step, hrest.ended hend]
        cases d.finish <;> rfl

/-- The reader of values reads a well-formed value, or refuses it for a cause of its own. -/
theorem settles_readValue (limit : Nat) {form : List Char} {parts : Parts} (h : Wellformed form (.value parts)) :
    ∃ result, Settles (readValue limit) form result ∧ ∀ cause, result = .error cause → cause.isStrict = true := by
  -- the skipper goes on through the value, so the reader does or refuses it
  obtain ⟨t, hskip, hbehind⟩ := skips_of_wellformed h [] (State.outline (.beforeValue [])) .before
  have hblank : ∀ a, Blank a → (valueMachine limit).feed (.beforeValue []) a = some (.beforeValue []) :=
    fun a ha => Awaits.before.feed_blank ha
  rcases feed_or_refuses limit hskip with ⟨s, hfeed, rfl⟩ | ⟨cause, hstrict, hrun⟩
  · obtain ⟨result, hstrict, hresult⟩ := run_behind limit hbehind
    refine ⟨result, fun a rest ha hrest => ?_, hstrict⟩
    rw [readValue, Machine.run_append _ (hblank a ha), Machine.run_append _ hfeed, hresult rest hrest]
  · refine ⟨.error cause, fun a rest ha _ => ?_, fun cause' heq => Except.error.inj heq ▸ hstrict⟩
    obtain ⟨fault, hfault, hcause⟩ := hrun rest
    rw [readValue, Machine.run_append _ (hblank a ha), hfault, told_error, hcause]
    rfl

/-- **The reader of values is steady.** -/
theorem steady_readValue (limit : Nat) : Steady (readValue limit) := by
  refine steady_of_settles fun form parts h => ?_
  obtain ⟨result, hsettles, -⟩ := settles_readValue limit h
  exact ⟨result, hsettles⟩

/-- What the grammar derives for a well-formed value is made of it. -/
theorem outcome_of_form {room : Nat} {form : List Char} {parts : Parts} {v : Value}
    (h : Wellformed form (.value parts)) (hf : Form room form (.value v)) :
    outcome (readValue room) form = .ok v := by
  have htext : IsText room form v := ⟨[], form, [], by simp, blank_nil, hf, blank_nil⟩
  have hdecode : decode (readValue room) (String.ofList form) = .ok v := by
    rw [decode, String.toList_ofList, readAll_of_isText htext]
    rfl
  exact ((steady_readValue room).decode_ofList_eq_ok_iff h).mp hdecode

/-- **A well-formed value is refused for one of the four causes**, if it is. -/
theorem isStrict_of_readValue {limit : Nat} {form : List Char} {parts : Parts} {cause : Cause}
    (h : Wellformed form (.value parts)) (herror : outcome (readValue limit) form = .error cause) :
    cause.isStrict = true := by
  obtain ⟨result, hsettles, hstrict⟩ := settles_readValue limit h
  exact hstrict cause (hsettles.outcome_eq.symm.trans herror)

/-- A value that is skipped leaves what is behind it. -/
theorem settles_skipValue {form : List Char} {parts : Parts} (h : Wellformed form (.value parts)) :
    Settles skipValue form (.ok ()) := by
  intro a rest ha hrest
  obtain ⟨t, hskip, hbehind⟩ := skips_of_wellformed h [] _ .before
  rw [skipValue, Machine.run_append _ (SkipAwaits.before.feed_blank ha), Machine.run_append _ hskip]
  cases hbehind with
  | after => cases rest <;> rfl
  | number hend =>
    cases rest with
    | nil =>
      simp only [Machine.run, skipMachine, SkipState.finish, hend, if_true]
      rfl
    | cons c rest =>
      simp only [Machine.run, skipMachine, SkipState.step, hrest.ended hend]
      rfl

/-! ## 4. Values of one kind -/

section

variable {α : Type} {read : Reader α} {form : List Char} {parts : Parts}

/-- The blanks in front of a value are passed. -/
theorem Wellformed.dropBlank_eq (h : Wellformed form (.value parts)) {a : List Char} (ha : Blank a)
    (rest : List Char) : dropBlank (a ++ (form ++ rest)) = form ++ rest := by
  obtain ⟨c, more, rfl, hc⟩ := h.starts
  have hblank : isBlank c = false := by
    simp [isBlank, hc.ne (d := ' ') (by simp), hc.ne (d := '\t') (by simp), hc.ne (d := '\n') (by simp),
      hc.ne (d := '\r') (by simp)]
  exact dropBlank_append ha hblank (more ++ rest)

/-- A value that is no list and no object is read, and then judged. -/
theorem settles_readScalar (expected : String) (accept : Value → Option α)
    (h : Wellformed form (.value .scalar)) :
    Settles (readScalar expected accept) form (outcome (readValue depthLimit) form >>= fun value =>
      match accept value with
      | some x => .ok x
      | none => .error (.wrongKind value.found expected)) := by
  intro a rest ha hrest
  have hvalue := (steady_readValue depthLimit form .scalar h).front hrest
  have hdrop := h.dropBlank_eq ha rest
  obtain ⟨c, more, rfl, hlist, hobject⟩ := h.bracket
  rw [readScalar, hdrop, List.cons_append]
  rw [List.cons_append] at hvalue
  split
  · rename_i heq
    exact absurd (List.cons.inj heq).1 hlist
  · rename_i heq
    exact absurd (List.cons.inj heq).1 hobject
  · generalize readValue depthLimit (c :: (more ++ rest)) = found at hvalue ⊢
    generalize outcome (readValue depthLimit) (c :: more) = result at hvalue ⊢
    cases result with
    | error cause =>
      cases found with
      | ok x => cases hvalue
      | error fault =>
        obtain rfl : fault.cause = cause := Except.error.inj hvalue
        rfl
    | ok value =>
      obtain rfl := told_eq_ok_iff.mp hvalue
      show told (match accept value with
        | some x => Except.ok (x, rest)
        | none => .error (.before (.wrongKind value.found expected) rest)) =
          Except.map _ (match accept value with
            | some x => Except.ok x
            | none => .error (.wrongKind value.found expected))
      cases accept value <;> rfl

/-- A list is refused at its bracket, -/
theorem settles_readScalar_list {items : List (List Char)} (expected : String) (accept : Value → Option α)
    (h : Wellformed form (.value (.list items))) :
    Settles (readScalar expected accept) form (.error (.wrongKind .list expected)) := by
  intro a rest ha _
  have hdrop := h.dropBlank_eq ha rest
  obtain ⟨c, more, rfl, hc⟩ := h.bracket
  obtain rfl : c = '[' := hc
  rw [readScalar, hdrop]
  rfl

/-- and so is an object. -/
theorem settles_readScalar_object {members : List (List Char × List Char)} (expected : String)
    (accept : Value → Option α) (h : Wellformed form (.value (.object members))) :
    Settles (readScalar expected accept) form (.error (.wrongKind .object expected)) := by
  intro a rest ha _
  have hdrop := h.dropBlank_eq ha rest
  obtain ⟨c, more, rfl, hc⟩ := h.bracket
  obtain rfl : c = '{' := hc
  rw [readScalar, hdrop]
  rfl

/-- **The readers of scalars are steady.** -/
theorem steady_readScalar (expected : String) (accept : Value → Option α) :
    Steady (readScalar expected accept) := by
  refine steady_of_settles fun form parts h => ?_
  cases parts with
  | scalar => exact ⟨_, settles_readScalar expected accept h⟩
  | list items => exact ⟨_, settles_readScalar_list expected accept h⟩
  | object members => exact ⟨_, settles_readScalar_object expected accept h⟩

theorem steady_readText : Steady readText :=
  steady_readScalar "a string" Value.text?

theorem steady_readNull : Steady readNull :=
  steady_readScalar "unit" Value.null?

/-- What begins like `null` is read as `null`, -/
theorem settles_readOption_null {more : List Char} (h : Wellformed ('n' :: more) (.value parts)) :
    Settles (readOption read) ('n' :: more) ((outcome readNull ('n' :: more)).map fun _ => none) := by
  intro a rest ha hrest
  have hdrop := h.dropBlank_eq ha rest
  have hnull := (steady_readNull _ parts h).front hrest
  rw [readOption, hdrop, List.cons_append]
  rw [List.cons_append] at hnull
  show told (Except.map _ (readNull ('n' :: (more ++ rest)))) = _
  rw [told_map, hnull, map_map, map_map]

/-- and anything else as what it is. -/
theorem settles_readOption_some {result : Except Cause α} (h : Wellformed form (.value parts))
    (hn : ∀ more, form ≠ 'n' :: more) (hread : Settles read form result) :
    Settles (readOption read) form (result.map some) := by
  intro a rest ha hrest
  have hdrop := h.dropBlank_eq ha rest
  rw [readOption, hdrop]
  split
  · rename_i more heq
    obtain ⟨c, tail, rfl, -⟩ := h.starts
    exact absurd (by rw [(List.cons.inj heq).1]) (hn tail)
  · rw [told_map, hread.front hrest, map_map, map_map]

/-- **A value that may be `null`** is read steadily if the value is. -/
theorem steady_readOption (h : Steady read) : Steady (readOption read) := by
  refine steady_of_settles fun form parts hform => ?_
  by_cases hn : ∃ more, form = 'n' :: more
  · obtain ⟨more, rfl⟩ := hn
    exact ⟨_, settles_readOption_null hform⟩
  · have hother : ∀ more, form ≠ 'n' :: more := fun more heq => hn ⟨more, heq⟩
    exact ⟨_, settles_readOption_some hform hother (h form parts hform)⟩

/-! ## 5. Variants -/

variable {known : List (String × α)} {a b c d key tail : List Char}

/-- A name is a text that is known. -/
theorem settles_readName (known : List (String × α)) (hform : Wellformed form (.value parts)) :
    Settles (readName known) form (outcome readText form >>= fun name =>
      match known.lookup name with
      | some x => .ok x
      | none => .error (.unknownVariant name (known.map Prod.fst))) := by
  intro a rest ha hrest
  rw [readName, told_bind, steady_readText form parts hform a rest ha hrest, map_bind, bind_map]
  congr 1
  funext name
  dsimp only
  cases known.lookup name <;> rfl

theorem steady_readName (known : List (String × α)) : Steady (readName known) :=
  steady_of_settles fun _ _ hform => ⟨_, settles_readName known hform⟩

/-- The colon behind a key is passed. -/
theorem readColon_append (hb : Blank b) (rest : List Char) : readColon (b ++ ':' :: rest) = .ok ((), rest) := by
  rw [readColon, dropBlank_append hb rfl]
  rfl

/-- A key is a text. -/
theorem Quoted.wellformed (hk : Quoted key) : Wellformed key (.value .scalar) := .text hk

/-- What a variant in an object is, once its key and its value are read. -/
def closeVariant (x : α) : Reader α := fun text =>
  match dropBlank text with
  | [] => refuse .endInObject []
  | '}' :: rest => .ok (x, rest)
  | text => .error (.before .expectedValue text)

/-- A variant in an object is read from the first member alone. -/
theorem readVariant_object (ha : Blank a) (hd : Blank d) (hk : Quoted key) (text : List Char) :
    readVariant known (a ++ '{' :: (d ++ (key ++ text))) = (do
      let (x, rest) ← readName known (key ++ text)
      let (_, rest) ← readColon rest
      let (_, rest) ← readNull rest
      closeVariant x rest) := by
  have hdrop := hk.wellformed.dropBlank_eq hd text
  obtain ⟨hsigns⟩ := hk
  rw [readVariant, dropBlank_append ha rfl]
  simp only [hdrop]
  rfl

theorem told_readVariant_object (known : List (String × α)) (ha : Blank a) (hd : Blank d) (hk : Quoted key)
    (hb : Blank b) (hc : Blank c) (h : Wellformed form (.value parts)) (ht : Bounded tail) :
    told (readVariant known (a ++ '{' :: (d ++ (key ++ (b ++ ':' :: (c ++ (form ++ tail))))))) =
      outcome (readName known) key >>= fun x => outcome readNull form >>= fun _ =>
        told (closeVariant x tail) := by
  have hname := (steady_readName known key .scalar hk.wellformed).front
    (bounded_append hb (.inr rfl) (c ++ (form ++ tail)))
  have hnull := steady_readNull form parts h c tail hc ht
  rw [readVariant_object ha hd hk, told_bind, hname, map_bind]
  congr 1
  funext x
  dsimp only
  rw [readColon_append hb]
  show told (readNull (c ++ (form ++ tail)) >>= fun p => closeVariant x p.2) = _
  rw [told_bind, hnull, map_bind]

/-- A text is a variant by its name. -/
theorem settles_readVariant_text (hk : Quoted form) :
    Settles (readVariant known) form (outcome (readName known) form) := by
  intro a rest ha hrest
  have hname := (steady_readName known form .scalar hk.wellformed).front hrest
  rw [readVariant, hk.wellformed.dropBlank_eq ha]
  obtain ⟨hsigns⟩ := hk
  exact hname

/-- Nothing else is a variant. -/
theorem settles_readVariant_other {first : Char} {more : List Char}
    (h : Wellformed (first :: more) (.value parts)) (hquote : first ≠ '"') (hobject : first ≠ '{') :
    Settles (readVariant known) (first :: more) (.error .expectedValue) := by
  intro a rest ha _
  rw [readVariant, h.dropBlank_eq ha, List.cons_append]
  split
  · rename_i heq
    cases heq
  · rename_i heq
    exact absurd (List.cons.inj heq).1 hquote
  · rename_i heq
    exact absurd (List.cons.inj heq).1 hobject
  · rfl

/-- **A variant is read steadily**: by its name, or from an object with one member. -/
theorem steady_readVariant (known : List (String × α)) : Steady (readVariant known) := by
  refine steady_of_settles fun form parts hform => ?_
  have hdrop : ∀ {a}, Blank a → ∀ rest, dropBlank (a ++ (form ++ rest)) = form ++ rest := hform.dropBlank_eq
  cases hform with
  | text hk => exact ⟨_, settles_readVariant_text hk⟩
  | number h =>
    obtain ⟨c, more, hsplit, hc⟩ := h.starts
    subst hsplit
    refine ⟨_, settles_readVariant_other (.number h) ?_ ?_⟩
    · rintro rfl
      exact absurd hc (by decide)
    · rintro rfl
      exact absurd hc (by decide)
  | @emptyObject b hb =>
    refine ⟨.error .expectedValue, fun a rest ha _ => ?_⟩
    have hclose : dropBlank (b ++ '}' :: rest) = '}' :: rest := dropBlank_append hb rfl rest
    rw [readVariant, hdrop ha, List.cons_append, List.append_assoc, List.singleton_append]
    simp only [hclose]
    rfl
  | object hinside =>
    cases hinside with
    | @lastMember d key b c form e parts hd hk hb hc h he =>
      refine ⟨outcome (readName known) key >>= fun x => outcome readNull form >>= fun _ => .ok x,
        fun a rest ha _ => ?_⟩
      have hread := told_readVariant_object known ha hd hk hb hc h
        (bounded_append he (.inl (.inr (.inr (.inr rfl)))) rest)
      have hclose : ∀ x : α, closeVariant x (e ++ '}' :: rest) = .ok (x, rest) := fun x => by
        rw [closeVariant, dropBlank_append he rfl]
        rfl
      simp only [List.cons_append, List.append_assoc, List.nil_append, hread, hclose, bind_map]
      rfl
    | @moreMembers d key b c form e more parts members hd hk hb hc h he tail =>
      refine ⟨outcome (readName known) key >>= fun _ => outcome readNull form >>= fun _ =>
        .error .expectedValue, fun a rest ha _ => ?_⟩
      have hread := told_readVariant_object known ha hd hk hb hc h
        (bounded_append he (.inl (.inr (.inl rfl))) (more ++ '}' :: rest))
      have hclose : ∀ x : α, told (closeVariant x (e ++ ',' :: (more ++ '}' :: rest))) =
          .error .expectedValue := fun x => by
        rw [closeVariant, dropBlank_append he rfl]
        rfl
      simp only [List.cons_append, List.append_assoc, List.nil_append, hread, hclose, bind_map]
      rfl
  | null => exact ⟨_, settles_readVariant_other .null (by decide) (by decide)⟩
  | yes => exact ⟨_, settles_readVariant_other .yes (by decide) (by decide)⟩
  | no => exact ⟨_, settles_readVariant_other .no (by decide) (by decide)⟩
  | emptyList ha => exact ⟨_, settles_readVariant_other (.emptyList ha) (by decide) (by decide)⟩
  | list h => exact ⟨_, settles_readVariant_other (.list h) (by decide) (by decide)⟩

end

end LinkPane.Json
