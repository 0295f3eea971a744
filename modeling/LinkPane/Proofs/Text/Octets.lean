import LinkPane.Text.Position

/-!
# Octets tell characters apart

A text can be read back from its UTF-8 form, and from the beginning of that form so can the beginning of the
text. Where the form is cut inside a character, something is still known of that:

* `octets_prefix` -- a text whose octets begin with those of another text begins with that text;
* `Alike` -- two characters are the same, or both are outside ASCII and take as many octets;
* **`alike_of_prefix`** -- characters whose first octets agree are alike.
-/

namespace LinkPane.Text

/-! ## 1. Whole characters -/

/-- The octets of a character do not begin those of another one. -/
theorem eq_of_octets_append {c d : Char} {more : List UInt8} {text : List Char}
    (h : String.utf8EncodeChar c ++ more = octets (d :: text)) : c = d := by
  have hchar : (String.utf8EncodeChar c).toByteArray.utf8DecodeChar? 0 = some c := by
    have hsingle := List.utf8DecodeChar?_utf8Encode_singleton (c := c)
    rwa [List.utf8Encode, List.flatMap_singleton] at hsingle
  have hc : ((String.utf8EncodeChar c).toByteArray ++ more.toByteArray).utf8DecodeChar? 0 = some c :=
    ByteArray.utf8DecodeChar?_append_eq_some hchar more.toByteArray
  have hd : (d :: text).utf8Encode.utf8DecodeChar? 0 = some d := List.utf8DecodeChar?_utf8Encode_cons
  have hsame : (d :: text).utf8Encode = (String.utf8EncodeChar c).toByteArray ++ more.toByteArray := by
    rw [← List.toByteArray_append, h]
    rfl
  rw [hsame, hc] at hd
  exact Option.some.inj hd

/-- **The beginning of the octets tells the beginning of the text.** -/
theorem octets_prefix {read text : List Char} {more : List UInt8} (h : octets text = octets read ++ more) :
    ∃ rest, text = read ++ rest ∧ octets rest = more := by
  induction read generalizing text with
  | nil => exact ⟨text, rfl, h⟩
  | cons c read ih =>
    rw [octets_cons, List.append_assoc] at h
    cases text with
    | nil =>
      have hempty := congrArg List.length h
      have hpos := c.utf8Size_pos
      rw [octets_nil, List.length_append, String.length_utf8EncodeChar, List.length_nil] at hempty
      omega
    | cons d text =>
      obtain rfl := eq_of_octets_append h.symm
      rw [octets_cons] at h
      obtain ⟨rest, rfl, hrest⟩ := ih (List.append_cancel_left h)
      exact ⟨rest, rfl, hrest⟩

/-! ## 2. First octets -/

/-- The same character, or one outside ASCII for another that takes as many octets. -/
def Alike (c d : Char) : Prop :=
  c = d ∨ (127 < c.toNat ∧ 127 < d.toNat ∧ c.utf8Size = d.utf8Size)

theorem Alike.size_eq {c d : Char} (h : Alike c d) : c.utf8Size = d.utf8Size := by
  rcases h with rfl | ⟨-, -, hsize⟩
  · rfl
  · exact hsize

/-- The first octet of a character decides how many there are, and the character itself if it is in ASCII. -/
theorem exists_lead (c : Char) : ∃ n tail, String.utf8EncodeChar c = UInt8.ofNat n :: tail ∧ n < 256 ∧
    c.utf8Size = (if n < 128 then 1 else if n < 224 then 2 else if n < 240 then 3 else 4) ∧
    ((c.toNat ≤ 127 ∧ n = c.toNat) ∨ (127 < c.toNat ∧ 128 ≤ n)) := by
  have hlength := String.length_utf8EncodeChar c
  have hv : c.val.toNat = c.toNat := rfl
  unfold String.utf8EncodeChar at hlength ⊢
  dsimp only at hlength ⊢
  rw [hv] at hlength ⊢
  by_cases h1 : c.toNat ≤ 127
  · rw [if_pos h1] at hlength ⊢
    refine ⟨_, _, rfl, by omega, ?_, .inl ⟨h1, rfl⟩⟩
    rw [← hlength, if_pos (by omega)]
    rfl
  by_cases h2 : c.toNat ≤ 2047
  · rw [if_neg h1, if_pos h2] at hlength ⊢
    refine ⟨_, _, rfl, by omega, ?_, .inr ⟨by omega, by omega⟩⟩
    rw [← hlength, if_neg (by omega), if_pos (by omega)]
    rfl
  by_cases h3 : c.toNat ≤ 65535
  · rw [if_neg h1, if_neg h2, if_pos h3] at hlength ⊢
    refine ⟨_, _, rfl, by omega, ?_, .inr ⟨by omega, by omega⟩⟩
    rw [← hlength, if_neg (by omega), if_neg (by omega), if_pos (by omega)]
    rfl
  · rw [if_neg h1, if_neg h2, if_neg h3] at hlength ⊢
    refine ⟨_, _, rfl, by omega, ?_, .inr ⟨by omega, by omega⟩⟩
    rw [← hlength, if_neg (by omega), if_neg (by omega), if_neg (by omega)]
    rfl

/-- Characters with the same first octet are alike. -/
theorem alike_of_head {c d : Char} (h : (String.utf8EncodeChar c).head? = (String.utf8EncodeChar d).head?) :
    Alike c d := by
  obtain ⟨m, _, hc, hm, hcsize, hcascii⟩ := exists_lead c
  obtain ⟨n, _, hd, hn, hdsize, hdascii⟩ := exists_lead d
  have hlead : m = n := by
    rw [hc, hd, List.head?_cons, List.head?_cons, Option.some.injEq] at h
    have hnat := congrArg UInt8.toNat h
    rwa [UInt8.toNat_ofNat_of_lt' hm, UInt8.toNat_ofNat_of_lt' hn] at hnat
  subst hlead
  have hsize : c.utf8Size = d.utf8Size := hcsize.trans hdsize.symm
  rcases hcascii with ⟨hcle, hmc⟩ | ⟨hclt, hm128⟩
  · rcases hdascii with ⟨-, hmd⟩ | ⟨-, hm128⟩
    · exact .inl (Char.toNat_inj.mp (hmc.symm.trans hmd))
    · omega
  · rcases hdascii with ⟨hdle, hmd⟩ | ⟨hdlt, -⟩
    · omega
    · exact .inr ⟨hclt, hdlt, hsize⟩

/-- **A text that begins with an octet of a character begins with a character like it.** -/
theorem alike_of_prefix {c : Char} {rest text : List Char} {seen : Nat} (hseen : 1 ≤ seen)
    (h : (octets (c :: rest)).take seen <+: octets text) : ∃ d rest', text = d :: rest' ∧ Alike c d := by
  obtain ⟨m, ctail, hc, -⟩ := exists_lead c
  obtain ⟨n, rfl⟩ : ∃ n, seen = n + 1 := ⟨seen - 1, by omega⟩
  obtain ⟨more, hmore⟩ := h
  rw [octets_cons, hc, List.cons_append, List.take_succ_cons, List.cons_append] at hmore
  cases text with
  | nil => cases hmore
  | cons d text =>
    obtain ⟨k, dtail, hd, -⟩ := exists_lead d
    refine ⟨d, text, rfl, alike_of_head ?_⟩
    rw [octets_cons, hd, List.cons_append, List.cons.injEq] at hmore
    rw [hc, hd, List.head?_cons, List.head?_cons, hmore.1]

end LinkPane.Text
