import LinkPane.Text.Quoted
import LinkPane.Proofs.Json.Quoted

/-!
# Quoted texts can be read back

Whatever set of characters is written by code points, a quoted text tells the text and where it ends:

* `Delimited` -- forms that end where they end, whatever stands behind them;
* `hexDigits_injective` -- code points by their digits;
* `quoteChar_cases`, `quoteChar_append_inj` -- the three forms of a character are never confused, nor taken for
  the closing quote (`quoteChar_append_ne`);
* **`delimited_quoteWith`** -- so a quoted text is delimited;
* `Control`, `Clean`, `Conceals`, **`clean_quoteWith`** -- and if the set has every control character that has no
  escape of two characters, there is none in it.
-/

namespace LinkPane.Text

variable {escaped : Char → Bool} {c d short stop : Char} {s t x y : List Char}

/-! ## 1. Forms with an end -/

/-- Two forms that begin a text are of the same thing, and leave the same. -/
def Delimited {α : Type} (write : α → List Char) : Prop :=
  ∀ a b s t, write a ++ s = write b ++ t → a = b ∧ s = t

/-- What is written up to the first `stop` is known. -/
theorem append_stop_inj (hx : stop ∉ x) (hy : stop ∉ y) (h : x ++ stop :: s = y ++ stop :: t) :
    x = y ∧ s = t := by
  induction x generalizing y with
  | nil =>
    cases y with
    | nil => exact ⟨rfl, (List.cons.inj h).2⟩
    | cons d y => exact absurd (List.mem_cons.mpr (.inl (List.cons.inj h).1)) hy
  | cons c x ih =>
    rw [List.mem_cons, not_or] at hx
    cases y with
    | nil => exact absurd (List.cons.inj h).1.symm hx.1
    | cons d y =>
      rw [List.mem_cons, not_or] at hy
      obtain ⟨rfl, hrest⟩ := List.cons.inj h
      obtain ⟨rfl, hbehind⟩ := ih hx.2 hy.2 hrest
      exact ⟨rfl, hbehind⟩

/-! ## 2. Code points -/

/-- The characters of a code point are digits. -/
theorem exists_digit_of_mem_hexDigits {n : Nat} (h : c ∈ hexDigits n) : ∃ d : Fin 16, c = Nat.digitChar d := by
  induction n using Nat.strongRecOn with
  | ind n ih =>
    rw [hexDigits, Nat.toDigits_eq_if (by decide)] at h
    split at h
    · rename_i hlt
      exact ⟨⟨n, hlt⟩, List.mem_singleton.mp h⟩
    · rename_i hge
      rcases List.mem_append.mp h with h | h
      · exact ih (n / 16) (by omega) h
      · exact ⟨⟨n % 16, by omega⟩, List.mem_singleton.mp h⟩

theorem digitChar_inj {m n : Nat} (hm : m < 16) (hn : n < 16) (h : Nat.digitChar m = Nat.digitChar n) :
    m = n := by
  have hall : ∀ m n : Fin 16, Nat.digitChar m = Nat.digitChar n → m = n := by decide
  exact congrArg Fin.val (hall ⟨m, hm⟩ ⟨n, hn⟩ h)

/-- **A code point is known from its digits**: the last one is the rest by sixteen, those before are of the
    quotient. -/
theorem hexDigits_injective {m n : Nat} (h : hexDigits m = hexDigits n) : m = n := by
  induction m using Nat.strongRecOn generalizing n with
  | ind m ih =>
    have hne : ∀ k, hexDigits k ≠ [] := fun k => Nat.toDigits_ne_nil
    have hshort : ∀ k, k < 16 → hexDigits k = [] ++ [Nat.digitChar k] := fun k hk => Nat.toDigits_of_lt_base hk
    have hlong : ∀ k, 16 ≤ k → hexDigits k = hexDigits (k / 16) ++ [Nat.digitChar (k % 16)] := fun k hk =>
      Nat.toDigits_of_base_le (by decide) hk
    rcases Nat.lt_or_ge m 16 with hm | hm <;> rcases Nat.lt_or_ge n 16 with hn | hn
    · rw [hshort m hm, hshort n hn, List.nil_append, List.nil_append] at h
      exact digitChar_inj hm hn (List.cons.inj h).1
    · rw [hshort m hm, hlong n hn] at h
      exact absurd (List.append_inj' h rfl).1.symm (hne _)
    · rw [hlong m hm, hshort n hn] at h
      exact absurd (List.append_inj' h rfl).1 (hne _)
    · rw [hlong m hm, hlong n hn] at h
      obtain ⟨hfront, hlast⟩ := List.append_inj' h rfl
      have hquotient : m / 16 = n / 16 := ih (m / 16) (by omega) hfront
      have hrest : m % 16 = n % 16 :=
        digitChar_inj (Nat.mod_lt m (by decide)) (Nat.mod_lt n (by decide)) (List.cons.inj hlast).1
      omega

/-! ## 3. Characters -/

/-- **The forms of a character**: an escape of two characters, a code point in braces, or itself. -/
theorem quoteChar_cases (escaped : Char → Bool) (c : Char) :
    (∃ short, (c, short) ∈ shortEscapes ∧ quoteChar escaped c = ['\\', short]) ∨
    quoteChar escaped c = '\\' :: 'u' :: '\x7b' :: (hexDigits c.toNat ++ ['\x7d']) ∨
    (c ≠ '"' ∧ c ≠ '\\' ∧ shortEscapes.lookup c = none ∧ escaped c = false) ∧ quoteChar escaped c = [c] := by
  unfold quoteChar
  split
  · rename_i short hshort
    exact .inl ⟨short, Json.mem_of_lookup hshort, rfl⟩
  · rename_i hnone
    split
    · exact .inr (.inl rfl)
    · rename_i hplain
      refine .inr (.inr ⟨⟨?_, ?_, hnone, by simpa using hplain⟩, rfl⟩)
      · rintro rfl
        cases hnone
      · rintro rfl
        cases hnone

/-- An escape of two characters is of one character, and is no code point. -/
theorem shortEscapes_unique (h : (c, short) ∈ shortEscapes) :
    short ≠ 'u' ∧ ∀ d, (d, short) ∈ shortEscapes → c = d := by
  have hall : ∀ p ∈ shortEscapes, p.2 ≠ 'u' ∧ ∀ q ∈ shortEscapes, p.2 = q.2 → p.1 = q.1 := by decide
  obtain ⟨hu, hone⟩ := hall _ h
  exact ⟨hu, fun d hd => hone _ hd rfl⟩

/-- Digits hold no brace. -/
theorem brace_notMem_hexDigits (n : Nat) : '\x7d' ∉ hexDigits n := fun h => by
  have hall : ∀ d : Fin 16, '\x7d' ≠ Nat.digitChar d := by decide
  obtain ⟨d, hd⟩ := exists_digit_of_mem_hexDigits h
  exact hall d hd

/-- **A form is that of one character**, and it is known where it ends. -/
theorem quoteChar_append_inj (h : quoteChar escaped c ++ s = quoteChar escaped d ++ t) : c = d ∧ s = t := by
  rcases quoteChar_cases escaped c with ⟨short, hc, hform⟩ | hform | ⟨⟨-, hc, -, -⟩, hform⟩ <;>
    rcases quoteChar_cases escaped d with ⟨short', hd, hform'⟩ | hform' | ⟨⟨-, hd, -, -⟩, hform'⟩ <;>
    rw [hform, hform'] at h <;> simp only [List.cons_append, List.cons.injEq, List.nil_append] at h
  · obtain ⟨-, rfl, hrest⟩ := h
    exact ⟨(shortEscapes_unique hc).2 d hd, hrest⟩
  · exact absurd h.2.1 (shortEscapes_unique hc).1
  · exact absurd h.1.symm hd
  · exact absurd h.2.1.symm (shortEscapes_unique hd).1
  · -- the digits end at the brace
    obtain ⟨-, -, -, h⟩ := h
    simp only [List.append_assoc, List.singleton_append] at h
    obtain ⟨hdigits, hrest⟩ := append_stop_inj (brace_notMem_hexDigits _) (brace_notMem_hexDigits _) h
    exact ⟨Char.toNat_inj.mp (hexDigits_injective hdigits), hrest⟩
  · exact absurd h.1.symm hd
  · exact absurd h.1 hc
  · exact absurd h.1 hc
  · exact h

/-- No form begins with a quote. -/
theorem quoteChar_append_ne (h : quoteChar escaped c ++ s = '"' :: t) : False := by
  rcases quoteChar_cases escaped c with ⟨short, -, hform⟩ | hform | ⟨⟨hc, -⟩, hform⟩ <;>
    rw [hform] at h <;> have hfirst := (List.cons.inj h).1
  · exact absurd hfirst (by decide)
  · exact absurd hfirst (by decide)
  · exact hc hfirst

/-! ## 4. Texts -/

/-- **A quoted text is known, and where it ends**, by induction on the text: its characters are told one by one,
    and the closing quote from all of them. -/
theorem delimited_quoteWith (escaped : Char → Bool) : Delimited (quoteWith escaped) := by
  intro x y s t h
  have hinside : x.flatMap (quoteChar escaped) ++ '"' :: s = y.flatMap (quoteChar escaped) ++ '"' :: t := by
    simpa [quoteWith] using h
  clear h
  induction x generalizing y with
  | nil =>
    cases y with
    | nil => exact ⟨rfl, (List.cons.inj hinside).2⟩
    | cons d y =>
      rw [List.flatMap_cons, List.append_assoc] at hinside
      exact (quoteChar_append_ne hinside.symm).elim
  | cons c x ih =>
    cases y with
    | nil =>
      rw [List.flatMap_cons, List.append_assoc] at hinside
      exact (quoteChar_append_ne hinside).elim
    | cons d y =>
      simp only [List.flatMap_cons, List.append_assoc] at hinside
      obtain ⟨rfl, hrest⟩ := quoteChar_append_inj hinside
      obtain ⟨rfl, hbehind⟩ := ih _ hrest
      exact ⟨rfl, hbehind⟩

/-! ## 5. Control characters -/

/-- A control character, of either block. -/
def Control (c : Char) : Prop :=
  c.toNat < 0x20 ∨ 0x7f ≤ c.toNat ∧ c.toNat < 0xa0

instance (c : Char) : Decidable (Control c) :=
  inferInstanceAs (Decidable (_ ∨ _))

/-- A text without control characters. -/
def Clean (text : List Char) : Prop :=
  ∀ c ∈ text, ¬ Control c

-- by the characters of the text: a search for an instance can end at the one that tries all there are
instance (text : List Char) : Decidable (Clean text) :=
  List.decidableBAll (fun c => ¬ Control c) text

theorem Clean.append (hs : Clean s) (ht : Clean t) : Clean (s ++ t) := fun c hc =>
  (List.mem_append.mp hc).elim (hs c) (ht c)

/-- The set has every control character that has no escape of two characters. -/
def Conceals (escaped : Char → Bool) : Prop :=
  ∀ c, Control c → shortEscapes.lookup c = none → escaped c = true

/-- The characters that a log does not show are such a set. -/
theorem conceals_isHidden : Conceals isHidden := fun _ hc _ =>
  isHidden_of_control hc

/-- No form of a character has a control character in it. -/
theorem clean_quoteChar (h : Conceals escaped) (c : Char) : Clean (quoteChar escaped c) := by
  have hmarks : Clean ['\\', 'u', '\x7b', '\x7d'] := by decide
  have hshorts : ∀ p ∈ shortEscapes, ¬ Control p.2 := by decide
  have hdigits : ∀ k : Fin 16, ¬ Control (Nat.digitChar k) := by decide
  intro d hd
  rcases quoteChar_cases escaped c with ⟨short, hc, hform⟩ | hform | ⟨⟨-, -, hnone, hplain⟩, hform⟩ <;>
    rw [hform] at hd
  · simp only [List.mem_cons, List.not_mem_nil, or_false] at hd
    rcases hd with rfl | rfl
    · exact hmarks _ (by decide)
    · exact hshorts _ hc
  · simp only [List.mem_cons, List.mem_append, List.not_mem_nil, or_false] at hd
    rcases hd with rfl | rfl | rfl | hd | rfl
    · exact hmarks _ (by decide)
    · exact hmarks _ (by decide)
    · exact hmarks _ (by decide)
    · obtain ⟨k, rfl⟩ := exists_digit_of_mem_hexDigits hd
      exact hdigits k
    · exact hmarks _ (by decide)
  · obtain rfl := List.mem_singleton.mp hd
    intro hcontrol
    rw [h d hcontrol hnone] at hplain
    cases hplain

/-- **There is no control character in a quoted text.** -/
theorem clean_quoteWith (h : Conceals escaped) (text : List Char) : Clean (quoteWith escaped text) := by
  have hquote : ¬ Control '"' := by decide
  intro c hc
  rw [quoteWith, List.mem_append, List.mem_cons, List.mem_singleton] at hc
  rcases hc with (rfl | hc) | rfl
  · exact hquote
  · obtain ⟨d, -, hd⟩ := List.mem_flatMap.mp hc
    exact clean_quoteChar h d c hd
  · exact hquote

end LinkPane.Text
