import LinkPane.Log
import LinkPane.Proofs.Text.Quoting

/-!
# The lines of the log

A log of inputs can be read back, and nobody who chooses the texts in them can make it look like another one:

* `logLines` -- the lines about inputs, for any set of characters that texts are quoted without;
* `labelsMessage_inj`, `linkMessage_inj` -- a line tells the texts in it;
* `clean_labelsMessage`, `clean_linkMessage`, `clean_logLines` -- and has no control character in it;
* **`logLines_tell`** -- the lines tell the inputs, there is one more of them than links, and none of them has a
  control character, so that each is one line.
-/

namespace LinkPane

open Text

variable {escaped : Char → Bool} {quote : List Char → List Char} {a b : Inputs} {link link' : Link}
  {text : List Char}

/-! ## 1. Lines -/

/-- The lines about inputs. -/
def logLines (escaped : Char → Bool) (inputs : Inputs) : List String :=
  (logInputsWith escaped inputs).map Entry.line

/-- The line of a message about inputs. -/
def debugLine (message : List Char) : String :=
  (Entry.mk .debug (String.ofList message)).line

theorem logLines_eq (escaped : Char → Bool) (inputs : Inputs) :
    logLines escaped inputs = (messages (quoteWith escaped) inputs).map debugLine := by
  rw [logLines, logInputsWith, List.map_map]
  rfl

theorem toList_debugLine (message : List Char) :
    (debugLine message).toList = Level.debug.name.toList ++ " ".toList ++ message := by
  have hmessage : (String.ofList message).toList = message := String.toList_ofList
  rw [debugLine, Entry.line, String.toList_append, String.toList_append, hmessage]

theorem debugLine_inj (message message' : List Char) (h : debugLine message = debugLine message') :
    message = message' := by
  have hlists := congrArg String.toList h
  rw [toList_debugLine, toList_debugLine] at hlists
  exact List.append_cancel_left hlists

theorem length_logLines (escaped : Char → Bool) (inputs : Inputs) :
    (logLines escaped inputs).length = 1 + inputs.links.length := by
  rw [logLines_eq, messages, List.length_map, List.length_cons, List.length_mapIdx, Nat.add_comm]

/-! ## 2. What a line tells -/

/-- The line about the labels tells both. -/
theorem labelsMessage_inj (hquote : Delimited quote) (h : labelsMessage quote a = labelsMessage quote b) :
    a.sourceLabel = b.sourceLabel ∧ a.targetLabel = b.targetLabel := by
  unfold labelsMessage at h
  simp only [List.append_assoc] at h
  obtain ⟨hsource, h⟩ := hquote _ _ _ _ (List.append_cancel_left h)
  obtain ⟨htarget, -⟩ := hquote _ _ _ _ (List.append_cancel_left h)
  exact ⟨String.toList_inj.mp hsource, String.toList_inj.mp htarget⟩

/-- The line about a link tells its fields, to one who knows which line it is. -/
theorem linkMessage_inj (hquote : Delimited quote) {index : Nat}
    (h : linkMessage quote index link = linkMessage quote index link') : link = link' := by
  unfold linkMessage at h
  simp only [List.append_assoc] at h
  have hkind := List.append_cancel_left (List.append_cancel_left (List.append_cancel_left h))
  obtain ⟨hkind, h⟩ := hquote _ _ _ _ hkind
  obtain ⟨hsource, h⟩ := hquote _ _ _ _ (List.append_cancel_left h)
  obtain ⟨htarget, -⟩ := hquote _ _ _ _ (List.append_cancel_left h)
  cases link
  cases link'
  rw [Link.mk.injEq]
  exact ⟨String.toList_inj.mp hkind, String.toList_inj.mp hsource, String.toList_inj.mp htarget⟩

/-- **The messages tell the inputs**: as many links as there are lines behind the first, each in its place. -/
theorem messages_inj (hquote : Delimited quote) (h : messages quote a = messages quote b) : a = b := by
  obtain ⟨hlabels, hlinks⟩ := List.cons.inj h
  obtain ⟨hsource, htarget⟩ := labelsMessage_inj hquote hlabels
  have hlength : a.links.length = b.links.length := by
    simpa only [List.length_mapIdx] using congrArg List.length hlinks
  have heach : a.links = b.links := List.ext_getElem hlength fun index ha hb => by
    have hline : (a.links.mapIdx (linkMessage quote))[index]? = (b.links.mapIdx (linkMessage quote))[index]? := by
      rw [hlinks]
    rw [List.getElem?_mapIdx, List.getElem?_mapIdx, List.getElem?_eq_getElem ha,
      List.getElem?_eq_getElem hb] at hline
    exact linkMessage_inj hquote (Option.some.inj hline)
  cases a
  cases b
  rw [Inputs.mk.injEq]
  exact ⟨hsource, htarget, heach⟩

/-! ## 3. What is in no line -/

theorem clean_decimal (n : Nat) : Clean (decimal n) := by
  intro c hc hcontrol
  have hdigit : c.isDigit = true := Nat.isDigit_of_mem_toDigits (by decide) (by decide) hc
  have hrange : 48 ≤ c.toNat ∧ c.toNat ≤ 57 := by
    simpa [Char.isDigit, UInt32.le_iff_toNat_le] using hdigit
  unfold Control at hcontrol
  omega

theorem clean_labelsMessage (hquote : ∀ text, Clean (quote text)) (inputs : Inputs) :
    Clean (labelsMessage quote inputs) := by
  have hsource : Clean "link table: source=".toList := by rw [String.toList_ofList]; decide
  have htarget : Clean " target=".toList := by rw [String.toList_ofList]; decide
  have hlinks : Clean " links=".toList := by rw [String.toList_ofList]; decide
  exact ((((hsource.append (hquote _)).append htarget).append (hquote _)).append hlinks).append (clean_decimal _)

theorem clean_linkMessage (hquote : ∀ text, Clean (quote text)) (index : Nat) (link : Link) :
    Clean (linkMessage quote index link) := by
  have hopen : Clean "  [".toList := by rw [String.toList_ofList]; decide
  have hkind : Clean "] Link \x7b kind: ".toList := by rw [String.toList_ofList]; decide
  have hsource : Clean ", source: ".toList := by rw [String.toList_ofList]; decide
  have htarget : Clean ", target: ".toList := by rw [String.toList_ofList]; decide
  have hclose : Clean " \x7d".toList := by rw [String.toList_ofList]; decide
  exact (((((((hopen.append (clean_decimal _)).append hkind).append (hquote _)).append hsource).append
    (hquote _)).append htarget).append (hquote _)).append hclose

theorem clean_debugLine (h : Clean text) : Clean (debugLine text).toList := by
  have hlevel : Clean Level.debug.name.toList := by rw [Level.name, String.toList_ofList]; decide
  have hspace : Clean " ".toList := by rw [String.toList_ofList]; decide
  rw [toList_debugLine]
  exact (hlevel.append hspace).append h

/-- **No line has a control character**, whatever texts are in the inputs. -/
theorem clean_logLines (h : Conceals escaped) (inputs : Inputs) :
    ∀ line ∈ logLines escaped inputs, Clean line.toList := by
  rw [logLines_eq]
  intro line hline
  obtain ⟨message, hmessage, rfl⟩ := List.mem_map.mp hline
  rcases List.mem_cons.mp hmessage with rfl | hmessage
  · exact clean_debugLine (clean_labelsMessage (clean_quoteWith h) inputs)
  · obtain ⟨index, _, rfl⟩ := List.mem_mapIdx.mp hmessage
    exact clean_debugLine (clean_linkMessage (clean_quoteWith h) index _)

/-! ## 4. The log -/

/-- **The lines of a log tell the inputs**: two inputs with the same lines are the same, labels and links in
    their order; there is a line for the labels and one for each link; and no line has a control character, and
    so no line break, for any set of characters that texts are quoted without, as long as it has the control
    characters in it that have no escape of their own. -/
theorem logLines_tell (h : Conceals escaped) :
    (∀ inputs inputs', logLines escaped inputs = logLines escaped inputs' → inputs = inputs') ∧
    (∀ inputs, (logLines escaped inputs).length = 1 + inputs.links.length) ∧
    ∀ inputs, ∀ line ∈ logLines escaped inputs, ∀ c ∈ line.toList, ¬ Control c ∧ c ≠ '\n' ∧ c ≠ '\r' := by
  refine ⟨fun inputs inputs' heq => ?_, length_logLines escaped, fun inputs line hline c hc => ?_⟩
  · rw [logLines_eq, logLines_eq] at heq
    exact messages_inj (delimited_quoteWith escaped) ((List.map_inj_right debugLine_inj).mp heq)
  · have hclean : ¬ Control c := clean_logLines h inputs line hline c hc
    refine ⟨hclean, ?_, ?_⟩
    · rintro rfl
      exact hclean (by decide)
    · rintro rfl
      exact hclean (by decide)

/-- A label that looks like the end of a label, another one and a line of its own: the log of it is not that of
    the labels it shows, and has no line break. -/
theorem logLines_tell_forged :
    Conceals isHidden ∧
    logLines isHidden ⟨"S\" target=\"T\" links=0\nINFO", "T", []⟩ ≠ logLines isHidden ⟨"S", "T", []⟩ ∧
    ∀ line ∈ logLines isHidden ⟨"S\" target=\"T\" links=0\nINFO", "T", []⟩, '\n' ∉ line.toList := by
  obtain ⟨htell, -, hclean⟩ := logLines_tell conceals_isHidden
  refine ⟨conceals_isHidden, fun heq => ?_, fun line hline hmem => ?_⟩
  · exact absurd (congrArg Inputs.sourceLabel (htell _ _ heq)) (by decide)
  · exact (hclean _ line hline '\n' hmem).2.1 rfl

end LinkPane
