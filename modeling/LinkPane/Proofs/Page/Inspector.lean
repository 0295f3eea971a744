import LinkPane.Proofs.Page.Text
import LinkPane.Proofs.Table.Refresh

/-!
# What the inspector shows

After any steps the page shows what its latest payload and the last good one before it call for. Neither the
payloads that were overtaken inside a step nor what the page keeps between steps have a part in it.

* `payloadAt`, `linksAt` -- the payload behind the first `k` steps, and the links of the last good payload
  among those that ended a step;
* `Boundary.Says` -- the boundary says a verdict and nothing of the ones before;
* `Inspector.Settled` -- **the invariant**: the page is up to date with a payload and some links;
* `Inspector.step_of_settled` -- a step keeps it, and shows what it should;
* **`Inspector.run_shows`** -- what every entry of every run shows, against the text of the page spelled out.
-/

namespace LinkPane

open Markup Json

/-! ## 1. Payloads and links behind some steps -/

/-- The payload behind the first `k` steps: the last one typed in step `k`, or the one before if step `k` types
    none. -/
def payloadAt (steps : List (List String)) : Nat → String
  | 0 => samplePayload
  | k + 1 => (steps[k]?.bind List.getLast?).getD (payloadAt steps k)

/-- The links behind the first `k` steps: those of the payload there, or the ones before if it is refused. -/
def linksAt (steps : List (List String)) : Nat → List Link
  | 0 => ((parseLinks samplePayload).toOption).getD []
  | k + 1 =>
    match parseLinks (payloadAt steps (k + 1)) with
    | .ok links => links
    | .error _ => linksAt steps k

/-- Payloads that are overtaken inside a step do not count. -/
theorem payloadAt_congr {steps steps' : List (List String)}
    (h : steps.map List.getLast? = steps'.map List.getLast?) (k : Nat) :
    payloadAt steps k = payloadAt steps' k := by
  induction k with
  | zero => rfl
  | succ k ih =>
    have hk : steps[k]?.map List.getLast? = steps'[k]?.map List.getLast? := by
      rw [← List.getElem?_map, ← List.getElem?_map, h]
    have hlast : steps[k]?.bind List.getLast? = steps'[k]?.bind List.getLast? := by
      cases hs : steps[k]? <;> cases hs' : steps'[k]? <;> simp_all
    rw [payloadAt, payloadAt, hlast, ih]

theorem linksAt_congr {steps steps' : List (List String)}
    (h : steps.map List.getLast? = steps'.map List.getLast?) (k : Nat) :
    linksAt steps k = linksAt steps' k := by
  induction k with
  | zero => rfl
  | succ k ih => rw [linksAt, linksAt, payloadAt_congr h, ih]

/-- A refused payload leaves the links. -/
theorem linksAt_succ_of_error {steps : List (List String)} {k : Nat} {rejection : Rejection}
    (h : parseLinks (payloadAt steps (k + 1)) = .error rejection) :
    linksAt steps (k + 1) = linksAt steps k := by
  rw [linksAt, h]

/-- Refused payloads leave the links, however many there are. -/
theorem linksAt_of_errors {steps : List (List String)} {j k : Nat} (hjk : j ≤ k)
    (h : ∀ i, j < i → i ≤ k → ∃ rejection, parseLinks (payloadAt steps i) = .error rejection) :
    linksAt steps k = linksAt steps j := by
  induction hjk with
  | refl => rfl
  | step hk ih =>
    obtain ⟨rejection, hr⟩ := h _ (Nat.lt_succ_of_le hk) (Nat.le_refl _)
    rw [linksAt_succ_of_error hr]
    exact ih fun i hi hik => h i hi (Nat.le_succ_of_le hik)

/-! ## 2. The boundary -/

/-- The boundary says the verdict: its error is the only one thrown, or there is none. -/
def Boundary.Says (boundary : Boundary) : Verdict → Prop
  | .accepted links =>
    boundary.errors = [] ∧
      boundary.inside = .shown (element "p" [] [.text (toString links.length ++ " links")])
  | .refused message => ∃ number, boundary.errors = [(number, message)] ∧ boundary.inside = .thrown number

/-- Clearing takes back the only error. -/
theorem Boundary.Says.errors_clear {boundary : Boundary} {verdict : Verdict}
    (h : boundary.Says verdict) : boundary.clear.errors = [] := by
  cases verdict with
  | accepted links =>
    obtain ⟨herrors, hinside⟩ := h
    rw [clear, hinside]
    exact herrors
  | refused message =>
    obtain ⟨number, herrors, hinside⟩ := h
    simp [clear, hinside, herrors]

/-- A verdict that is put in where no error is left is what the boundary says. -/
theorem Boundary.says_put {boundary : Boundary} (h : boundary.clear.errors = []) (verdict : Verdict) :
    (boundary.put verdict).Says verdict := by
  cases verdict with
  | accepted links => exact ⟨h, rfl⟩
  | refused message => exact ⟨boundary.clear.next, by simp [put, h], rfl⟩

/-- What is said about a payload is its verdict. -/
theorem Boundary.Says.view_eq {boundary : Boundary} {payload : String} {rows : Nat}
    (h : boundary.Says (.of payload))
    (hrows : ∀ links, parseLinks payload = .ok links → links.length = rows) :
    boundary.view = statusView rows (parseLinks payload) := by
  unfold Verdict.of at h
  cases hp : parseLinks payload with
  | ok links =>
    rw [hp] at h
    obtain ⟨herrors, hinside⟩ := h
    rw [view, herrors, hinside, statusView, hrows links hp]
  | error rejection =>
    rw [hp] at h
    obtain ⟨number, herrors, hinside⟩ := h
    rw [view, herrors, hinside]
    rfl

/-! ## 3. The invariant -/

/-- The links shown under the verdict on a payload. -/
theorem Verdict.links_of (payload : String) (before : List Link) :
    (Verdict.of payload).links (some before) =
      match parseLinks payload with
      | .ok links => links
      | .error _ => before := by
  unfold Verdict.of
  cases parseLinks payload <;> rfl

theorem Verdict.links_of_none (payload : String) :
    (Verdict.of payload).links none = ((parseLinks payload).toOption).getD [] := by
  unfold Verdict.of
  cases parseLinks payload <;> rfl

/-- Links that were shown under a verdict stay under it. -/
theorem Verdict.links_links (verdict : Verdict) (before : Option (List Link)) :
    verdict.links (some (verdict.links before)) = verdict.links before := by
  cases verdict <;> rfl

/-- **The page is up to date** with the payload and shows the links, which are its own if it has any. -/
structure Inspector.Settled (page : Inspector) (payload : String) (links : List Link) : Prop where
  payload_eq : page.payload = .new payload
  verdict_eq : page.verdict = some (.of payload)
  links_eq : page.links = some links
  table_eq : page.table = .showing (.choose none []) true (inspectorInputs links)
  status_shows : page.status.Says (.of payload)
  stay : (Verdict.of payload).links (some links) = links

/-- A page that is up to date is drawn as it should be, -/
theorem Inspector.Settled.view_eq {page : Inspector} {payload : String} {links : List Link}
    (h : page.Settled payload links) :
    page.view = inspectorView (tableView (.choose none []) (inspectorInputs links))
      (statusView links.length (parseLinks payload)) := by
  have hown : ∀ own, parseLinks payload = .ok own → own.length = links.length := by
    intro own ho
    have hsame : own = links := by simpa [Verdict.links_of, ho] using h.stay
    rw [hsame]
  rw [Inspector.view, h.table_eq, Table.view_showing, Boundary.Says.view_eq h.status_shows hown]

/-- and so is its text. -/
theorem Inspector.Settled.html_eq {page : Inspector} {payload : String} {links : List Link}
    (h : page.Settled payload links) : Markup.page page.view = inspectorText payload links := by
  rw [h.view_eq, page_inspectorView]

/-! ## 4. Steps -/

/-- What typing leaves on the page: the last payload, and the mark that something was typed. -/
theorem Inspector.enter_all (page : Inspector) (typed : List String) :
    typed.foldl Inspector.enter page =
      { page with payload :=
          ⟨typed.getLast?.getD page.payload.value, page.payload.written || !typed.isEmpty⟩ } := by
  induction typed generalizing page with
  | nil => simp
  | cons payload typed ih =>
    rw [List.foldl_cons, ih]
    cases typed with
    | nil => simp [enter, Signal.set, Signal.update]
    | cons next typed => simp [enter, List.getLast?_cons]

/-- A page that has not been drawn is up to date as soon as it is; the log is told of its links. -/
theorem Inspector.refresh_new (payload : String) :
    let shown := (Verdict.of payload).links none
    let page := { Inspector.fresh with payload := .new payload }
    page.refresh.1.Settled payload shown ∧ page.refresh.2 = [inspectorInputs shown] := by
  intro shown page
  have hrefresh : page.refresh =
      ({  payload := .new payload
          verdict := some (.of payload)
          links := some shown
          table := .showing (.choose none []) true (inspectorInputs shown)
          status := Boundary.new.put (.of payload) },
        [inspectorInputs shown]) := by
    simp only [refresh, fresh, page, Memo.ask_none, Table.refresh_new, Signal.value_new, if_true]
    rfl
  rw [hrefresh]
  exact ⟨⟨rfl, rfl, rfl, rfl, Boundary.says_put rfl _, Verdict.links_links _ _⟩, rfl⟩

/-- The links of a new page are those of its payload. -/
theorem linksAt_zero (steps : List (List String)) :
    linksAt steps 0 = (Verdict.of samplePayload).links none := by
  rw [linksAt, Verdict.links_of_none]

/-- The page as it is opened is up to date. -/
theorem Inspector.refresh_fresh (steps : List (List String)) :
    Inspector.fresh.refresh.1.Settled samplePayload (linksAt steps 0) ∧
      Inspector.fresh.refresh.2 = [inspectorInputs (linksAt steps 0)] := by
  have hfresh : { Inspector.fresh with payload := .new samplePayload } = Inspector.fresh := rfl
  have h := refresh_new samplePayload
  simp only [hfresh, ← linksAt_zero steps] at h
  exact h

/-- **A refresh keeps the invariant.** What was written since the last one is the payload of now; the log is
    told of the links iff they are others than before. -/
theorem Inspector.refresh_of_settled {page : Inspector} {payload next : String} {links : List Link}
    {written : Bool} (h : page.Settled payload links) (hw : written = false → next = payload) :
    let shown := (Verdict.of next).links (some links)
    let page' := { page with payload := ⟨next, written⟩ }
    page'.refresh.1.Settled next shown ∧
      page'.refresh.2 = if shown ≠ links then [inspectorInputs shown] else [] := by
  intro shown page'
  have hverdict : Memo.ask page.verdict written (fun _ => Verdict.of next) =
      (.of next, decide (Verdict.of next ≠ .of payload)) := by
    rw [h.verdict_eq]
    exact Memo.ask_some fun hf => by rw [hw hf]
  have hlinks : Memo.ask page.links (decide (Verdict.of next ≠ .of payload)) (Verdict.of next).links =
      (shown, decide (shown ≠ links)) := by
    rw [h.links_eq]
    refine Memo.ask_some fun hf => ?_
    have hsame : Verdict.of next = .of payload := by simpa using hf
    rw [hsame]
    exact h.stay
  have htable : page.table.refresh (decide (shown ≠ links)) (inspectorInputs shown) =
      (.showing (.choose none []) true (inspectorInputs shown),
        if shown ≠ links then [inspectorInputs shown] else []) := by
    have hinputs : inspectorInputs shown ≠ inspectorInputs links ↔ shown ≠ links := by
      simp [inspectorInputs]
    rw [h.table_eq, Table.refresh_showing fun hf => by rw [show shown = links by simpa using hf]]
    simp only [hinputs, decide_eq_true_eq, Bool.and_true]
  have hstatus : (if decide (Verdict.of next ≠ .of payload) = true then page.status.put (.of next)
      else page.status).Says (.of next) := by
    split
    · exact Boundary.says_put (Boundary.Says.errors_clear h.status_shows) _
    · rename_i hsame
      have : Verdict.of next = .of payload := by simpa using hsame
      rw [this]
      exact h.status_shows
  have hrefresh : page'.refresh =
      ({  payload := .new next
          verdict := some (.of next)
          links := some shown
          table := .showing (.choose none []) true (inspectorInputs shown)
          status := if decide (Verdict.of next ≠ .of payload) = true then page.status.put (.of next)
            else page.status },
        if shown ≠ links then [inspectorInputs shown] else []) := by
    simp only [refresh, page', hverdict, hlinks, htable]
    rfl
  rw [hrefresh]
  exact ⟨⟨rfl, rfl, rfl, rfl, hstatus, Verdict.links_links _ _⟩, rfl⟩

theorem Inspector.page_draw (page : Inspector) : page.draw.1 = page.refresh.1 := rfl

/-- What is shown after a refresh. -/
theorem Inspector.showing_draw (page : Inspector) :
    page.draw.2 = ⟨page.refresh.2.flatMap logInputs, Markup.page page.refresh.1.view⟩ := rfl

/-- The entries that the log is told of links shown instead of others. -/
def logOfChange (before shown : List Link) : List Entry :=
  if shown ≠ before then logInputs ⟨"Source", "Target", shown⟩ else []

/-- **A step keeps the invariant**, and shows what the payload behind it calls for. -/
theorem Inspector.step_of_settled {page : Inspector} {payload : String} {links : List Link}
    (h : page.Settled payload links) (typed : List String) :
    let next := typed.getLast?.getD payload
    let shown := (Verdict.of next).links (some links)
    (page.step typed).1.Settled next shown ∧
      (page.step typed).2 = ⟨logOfChange links shown, inspectorText next shown⟩ := by
  intro next shown
  have hnext : typed.getLast?.getD page.payload.value = next := by rw [h.payload_eq, Signal.value_new]
  have hw : (page.payload.written || !typed.isEmpty) = false → next = payload := by
    intro hf
    have : typed = [] := by simpa [h.payload_eq] using hf
    simp [next, this]
  obtain ⟨hsettled, htold⟩ := refresh_of_settled h hw
  have hlog : (if shown ≠ links then [inspectorInputs shown] else []).flatMap logInputs =
      logOfChange links shown := by
    unfold logOfChange
    split
    · rw [List.flatMap_singleton, inspectorInputs]
    · rfl
  rw [step, enter_all, hnext]
  refine ⟨hsettled, ?_⟩
  rw [showing_draw, htold, hlog, hsettled.html_eq]

/-! ## 5. Runs -/

/-- The page behind some steps. -/
def Inspector.after (page : Inspector) (steps : List (List String)) : Inspector :=
  steps.foldl (fun page typed => (page.step typed).1) page

/-- Each entry of a run shows the step from the page behind all steps before it. -/
theorem Inspector.getElem?_steps (page : Inspector) (steps : List (List String)) (k : Nat) :
    (page.steps steps)[k]? = steps[k]?.map fun typed => ((page.after (steps.take k)).step typed).2 := by
  induction steps generalizing page k with
  | nil => rfl
  | cons typed steps ih =>
    cases k with
    | zero => rfl
    | succ k => exact ih _ k

theorem Inspector.length_steps (page : Inspector) (steps : List (List String)) :
    (page.steps steps).length = steps.length := by
  induction steps generalizing page with
  | nil => rfl
  | cons typed steps ih => exact congrArg (· + 1) (ih _)

/-- The links behind one more step. -/
theorem linksAt_succ (steps : List (List String)) (k : Nat) :
    linksAt steps (k + 1) = (Verdict.of (payloadAt steps (k + 1))).links (some (linksAt steps k)) := by
  rw [Verdict.links_of, linksAt]

/-- **Every page of a run is up to date** with the payload and the links there. -/
theorem Inspector.settled_after {steps : List (List String)} {k : Nat} (h : k ≤ steps.length) :
    (Inspector.fresh.draw.1.after (steps.take k)).Settled (payloadAt steps k) (linksAt steps k) := by
  induction k with
  | zero =>
    rw [List.take_zero, after, List.foldl_nil, page_draw, payloadAt]
    exact (refresh_fresh steps).1
  | succ k ih =>
    have hk : k < steps.length := h
    have hstep := (step_of_settled (ih (Nat.le_of_lt hk)) steps[k]).1
    have hpayload : steps[k].getLast?.getD (payloadAt steps k) = payloadAt steps (k + 1) := by
      rw [payloadAt, List.getElem?_eq_getElem hk, Option.bind_some]
    rw [List.take_succ_eq_append_getElem hk, after, List.foldl_append, linksAt_succ, ← hpayload]
    exact hstep

/-- The entries in the log of entry `k`. -/
def logAt (steps : List (List String)) (k : Nat) : List Entry :=
  if k = 0 ∨ linksAt steps k ≠ linksAt steps (k - 1) then logInputs ⟨"Source", "Target", linksAt steps k⟩
  else []

/-- Every entry of a run shows what the payload and the links there call for. -/
theorem Inspector.getElem?_run {steps : List (List String)} {k : Nat} (h : k ≤ steps.length) :
    (Inspector.run steps)[k]? =
      some ⟨logAt steps k, inspectorText (payloadAt steps k) (linksAt steps k)⟩ := by
  cases k with
  | zero =>
    obtain ⟨hsettled, htold⟩ := refresh_fresh steps
    have hlog : Inspector.fresh.refresh.2.flatMap logInputs = logAt steps 0 := by
      rw [htold, logAt, if_pos (.inl rfl), List.flatMap_singleton, inspectorInputs]
    rw [run, List.getElem?_cons_zero, showing_draw, hlog, hsettled.html_eq, payloadAt]
  | succ k =>
    have hk : k < steps.length := h
    have hpayload : steps[k].getLast?.getD (payloadAt steps k) = payloadAt steps (k + 1) := by
      rw [payloadAt, List.getElem?_eq_getElem hk, Option.bind_some]
    have hstep := (step_of_settled (settled_after (Nat.le_of_lt hk)) steps[k]).2
    rw [hpayload, ← linksAt_succ] at hstep
    have hlog : logOfChange (linksAt steps k) (linksAt steps (k + 1)) = logAt steps (k + 1) := by
      simp [logOfChange, logAt]
    rw [run, List.getElem?_cons_succ, getElem?_steps, List.getElem?_eq_getElem hk, Option.map_some, hstep,
      hlog]

theorem Inspector.length_run (steps : List (List String)) :
    (Inspector.run steps).length = steps.length + 1 := by
  rw [run, List.length_cons, length_steps]

/-- A run depends on its steps by their last payloads only. -/
theorem Inspector.run_congr {steps steps' : List (List String)}
    (h : steps.map List.getLast? = steps'.map List.getLast?) :
    Inspector.run steps = Inspector.run steps' := by
  have hlength : steps.length = steps'.length := by simpa using congrArg List.length h
  refine List.ext_getElem? fun k => ?_
  by_cases hk : k ≤ steps.length
  · rw [getElem?_run hk, getElem?_run (hlength ▸ hk), payloadAt_congr h, logAt, logAt, linksAt_congr h,
      linksAt_congr h]
  · rw [List.getElem?_eq_none (by rw [length_run]; omega), List.getElem?_eq_none (by rw [length_run]; omega)]

/-- The links of a new page. -/
def sampleLinks : List Link :=
  [⟨"net", "mcu.gpio1", "led.anode"⟩, ⟨"net", "mcu.gnd", "led.cathode"⟩,
    ⟨"interface", "mcu.i2c", "sensor.i2c"⟩, ⟨"power", "ldo.vout", "mcu.vcc"⟩]

/-- The payload of a new page is a list of links. -/
theorem parseLinks_samplePayload : parseLinks samplePayload = .ok sampleLinks := by
  have hread : readAll (readValue depthLimit) samplePayload.toList = .ok (.list
      [.object [("type", .text "net"), ("source", .text "mcu.gpio1"), ("target", .text "led.anode")],
        .object [("type", .text "net"), ("source", .text "mcu.gnd"), ("target", .text "led.cathode")],
        .object [("type", .text "interface"), ("source", .text "mcu.i2c"), ("target", .text "sensor.i2c")],
        .object [("type", .text "power"), ("source", .text "ldo.vout"), ("target", .text "mcu.vcc")]]) := by
    simp only [samplePayload, String.toList_append]
    -- a literal is the text of its characters; left to itself the kernel would decode its octets
    repeat rw [String.toList_ofList]
    rfl
  rw [parseLinks, decode, hread]
  rfl

theorem linksAt_zero_eq (steps : List (List String)) : linksAt steps 0 = sampleLinks := by
  rw [linksAt, parseLinks_samplePayload, Except.toOption, Option.getD_some]

/-- **What a run shows.** Entry `k` is the table of the last good payload that ended a step, under it the number
    of its rows or why the payload there is refused, and the log of that table if it is a new one. So a payload
    that is overtaken inside its step has no effect, and payloads that are refused, however many in a row, neither
    change nor log a row. -/
theorem Inspector.run_shows (steps : List (List String)) :
    parseLinks samplePayload = .ok (linksAt steps 0) ∧
      (Inspector.run steps).length = steps.length + 1 ∧
      (∀ k ≤ steps.length, (Inspector.run steps)[k]? =
        some ⟨logAt steps k,
          pageText (linksAt steps k) (statusText (linksAt steps k).length (parseLinks (payloadAt steps k)))⟩) ∧
      (∀ steps', steps'.map List.getLast? = steps.map List.getLast? →
        Inspector.run steps' = Inspector.run steps) ∧
      ∀ j k, j < k → k ≤ steps.length →
        (∀ i, j < i → i ≤ k → ∃ rejection, parseLinks (payloadAt steps i) = .error rejection) →
        linksAt steps k = linksAt steps j ∧ logAt steps k = [] := by
  refine ⟨?_, length_run steps, fun k hk => getElem?_run hk, fun _ h => run_congr h, ?_⟩
  · rw [linksAt_zero_eq, parseLinks_samplePayload]
  · intro j k hjk _ hbad
    have hlast : linksAt steps k = linksAt steps (k - 1) :=
      linksAt_of_errors (Nat.sub_le k 1) fun i hi hik => hbad i (by omega) hik
    have hzero : k ≠ 0 := Nat.ne_zero_of_lt hjk
    exact ⟨linksAt_of_errors (Nat.le_of_lt hjk) hbad, by simp [logAt, hzero, hlast]⟩

/-- Three steps: a good payload that a bad one overtakes, one with a link, and again a good one that a bad one
    overtakes. The first changes no row, the second shows and logs its link, and the third leaves it there. -/
theorem Inspector.run_shows_overtaken :
    let steps := [["[]", "oops"], ["[\x7b\"type\":\"net\",\"source\":\"a<b\"\x7d]"], ["[]", "[1"]]
    (Inspector.run steps)[1]? =
        some ⟨[], pageText sampleLinks (refusedText "Parse error: expected value at line 1 column 1")⟩ ∧
      (Inspector.run steps)[2]? = some ⟨logInputs ⟨"Source", "Target", [⟨"net", "a<b", ""⟩]⟩,
        pageText [⟨"net", "a<b", ""⟩] "<p>1 links</p>"⟩ ∧
      (Inspector.run steps)[3]? = some ⟨[], pageText [⟨"net", "a<b", ""⟩]
        (refusedText "Parse error: EOF while parsing a list at line 1 column 2")⟩ := by
  intro steps
  obtain ⟨-, -, hentry, -, hkept⟩ := Inspector.run_shows steps
  have hword : parseLinks (payloadAt steps 1) = .error (.unreadable ⟨.expectedValue, ⟨1, 1⟩⟩) := by
    have hpayload : payloadAt steps 1 = "oops" := rfl
    rw [hpayload]
    rfl
  have hopen : parseLinks (payloadAt steps 3) = .error (.unreadable ⟨.endInList, ⟨1, 2⟩⟩) := by
    have hpayload : payloadAt steps 3 = "[1" := rfl
    rw [hpayload]
    rfl
  have hlink : parseLinks (payloadAt steps 2) = .ok [⟨"net", "a<b", ""⟩] := by
    have hpayload : payloadAt steps 2 = "[\x7b\"type\":\"net\",\"source\":\"a<b\"\x7d]" := rfl
    have hread : readAll (readValue depthLimit) "[\x7b\"type\":\"net\",\"source\":\"a<b\"\x7d]".toList =
        .ok (.list [.object [("type", .text "net"), ("source", .text "a<b")]]) := by
      rw [String.toList_ofList]
      rfl
    rw [hpayload, parseLinks, decode, hread]
    rfl
  obtain ⟨hfirst, hfirstLog⟩ := hkept 0 1 (by decide) (by decide) fun i hi hik => by
    obtain rfl : i = 1 := by omega
    exact ⟨_, hword⟩
  have hsecond : linksAt steps 2 = [⟨"net", "a<b", ""⟩] := by rw [linksAt, hlink]
  obtain ⟨hthird, hthirdLog⟩ := hkept 2 3 (by decide) (by decide) fun i hi hik => by
    obtain rfl : i = 3 := by omega
    exact ⟨_, hopen⟩
  have hchanged : linksAt steps 2 ≠ linksAt steps 1 := by
    rw [hsecond, hfirst, linksAt_zero_eq]
    simp [sampleLinks]
  have hone : statusText 1 (.ok [⟨"net", "a<b", ""⟩]) = "<p>1 links</p>" := by decide
  refine ⟨?_, ?_, ?_⟩
  · rw [hentry 1 (by decide), hfirstLog, hfirst, linksAt_zero_eq, hword]
    rfl
  · rw [hentry 2 (by decide), logAt, if_pos (.inr hchanged), hsecond, hlink, List.length_singleton, hone]
  · rw [hentry 3 (by decide), hthirdLog, hthird, hsecond, hopen]
    rfl

end LinkPane
