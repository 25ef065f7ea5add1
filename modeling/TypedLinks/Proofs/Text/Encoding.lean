import TypedLinks.Text.Utf8

/-!
# Decoding what was encoded

The bytes that are written for characters are read back as these characters, and no other bytes are
read. A character takes one to four bytes; the decoder is followed from its first byte to its last.
-/

namespace TypedLinks.Utf8

/-! ## Single bytes -/

theorem toNat_ofNat_of_lt {n : Nat} (h : n < 256) : (UInt8.ofNat n).toNat = n := by
  rw [UInt8.toNat_ofNat']
  exact Nat.mod_eq_of_lt h

section Bytes

variable {offset n : Nat} {bs : List UInt8} {p : Partial}

/-- A byte below 128 is a character. -/
theorem decodeFrom_ascii (h : n < 0x80) :
    decodeFrom offset none (.ofNat n :: bs) =
      (Char.ofNat n :: ·) <$> decodeFrom (offset + 1) none bs := by
  have hn := toNat_ofNat_of_lt (show n < 256 by omega)
  rw [decodeFrom, hn, if_pos h]

/-- A byte that starts a sequence is remembered. -/
theorem decodeFrom_lead (hn : 0x80 ≤ n) (hn' : n < 256) (h : lead (.ofNat n) offset = some p) :
    decodeFrom offset none (.ofNat n :: bs) = decodeFrom (offset + 1) (some p) bs := by
  rw [decodeFrom, toNat_ofNat_of_lt hn', if_neg (by omega)]
  simp only [h]

/-- A byte that continues a sequence, with more to come. -/
theorem decodeFrom_owed {owed : Nat} (hlow : p.low ≤ n) (hhigh : n ≤ p.high) (hn : n < 256)
    (howed : p.owed = owed + 1) :
    decodeFrom offset (some p) (.ofNat n :: bs) =
      decodeFrom (offset + 1)
        (some ⟨p.lead, p.start, p.value * 64 + (n - 0x80), owed, 0x80, 0xBF⟩) bs := by
  rw [decodeFrom, toNat_ofNat_of_lt hn]
  simp only [if_pos (And.intro hlow hhigh), howed]

/-- The last byte of a sequence. -/
theorem decodeFrom_last (hlow : p.low ≤ n) (hhigh : n ≤ p.high) (hn : n < 256)
    (howed : p.owed = 0) :
    decodeFrom offset (some p) (.ofNat n :: bs) =
      (Char.ofNat (p.value * 64 + (n - 0x80)) :: ·) <$> decodeFrom (offset + 1) none bs := by
  rw [decodeFrom, toNat_ofNat_of_lt hn]
  simp only [if_pos (And.intro hlow hhigh), howed]

end Bytes

/-! ## First bytes -/

theorem lead_two {n offset : Nat} (h : 2 ≤ n) (h' : n < 32) :
    lead (.ofNat (n + 192)) offset = some ⟨.ofNat (n + 192), offset, n, 0, 0x80, 0xBF⟩ := by
  unfold lead
  rw [toNat_ofNat_of_lt (by omega)]
  simp only [if_pos (show 0xC2 ≤ n + 192 ∧ n + 192 ≤ 0xDF by omega), Nat.add_sub_cancel]

/-- The range of the second byte of a character that takes three bytes. -/
theorem lead_three {n offset : Nat} (h : n < 16) :
    ∃ low high, lead (.ofNat (n + 224)) offset = some ⟨.ofNat (n + 224), offset, n, 1, low, high⟩ ∧
      (low = if n = 0 then 0xA0 else 0x80) ∧ (high = if n = 13 then 0x9F else 0xBF) := by
  unfold lead
  rw [toNat_ofNat_of_lt (by omega)]
  simp only [if_neg (show ¬(0xC2 ≤ n + 224 ∧ n + 224 ≤ 0xDF) by omega)]
  by_cases h0 : n = 0
  · subst h0
    exact ⟨_, _, rfl, rfl, rfl⟩
  by_cases hd : n = 13
  · subst hd
    exact ⟨_, _, rfl, rfl, rfl⟩
  simp only [if_neg (show n + 224 ≠ 0xE0 by omega), if_neg (show n + 224 ≠ 0xED by omega),
    if_pos (show 0xE1 ≤ n + 224 ∧ n + 224 ≤ 0xEF by omega), Nat.add_sub_cancel, if_neg h0, if_neg hd]
  exact ⟨_, _, rfl, rfl, rfl⟩

/-- The range of the second byte of a character that takes four bytes. -/
theorem lead_four {n offset : Nat} (h : n < 5) :
    ∃ low high, lead (.ofNat (n + 240)) offset = some ⟨.ofNat (n + 240), offset, n, 2, low, high⟩ ∧
      (low = if n = 0 then 0x90 else 0x80) ∧ (high = if n = 4 then 0x8F else 0xBF) := by
  have hn : n ∈ [0, 1, 2, 3, 4] := by
    simp only [List.mem_cons, List.not_mem_nil, or_false]
    omega
  simp only [List.mem_cons, List.not_mem_nil, or_false] at hn
  rcases hn with rfl | rfl | rfl | rfl | rfl <;> exact ⟨_, _, rfl, rfl, rfl⟩

/-! ## Characters and texts -/

/-- The bytes of a character are decoded into it, whatever follows. -/
theorem decodeFrom_encodeChar (c : Char) (offset : Nat) (bs : List UInt8) :
    ∃ offset', decodeFrom offset none (String.utf8EncodeChar c ++ bs) =
      (c :: ·) <$> decodeFrom offset' none bs := by
  have hvalid : c.toNat < 0xD800 ∨ 0xDFFF < c.toNat ∧ c.toNat < 0x110000 := c.valid
  have hchar {n : Nat} (h : n = c.toNat) : Char.ofNat n = c := by
    rw [h, Char.ofNat_toNat]
  have hval : c.val.toNat = c.toNat := rfl
  unfold String.utf8EncodeChar
  rw [hval]
  generalize hv : c.toNat = v at hvalid hchar
  dsimp only
  split
  · exact ⟨_, by rw [List.singleton_append, decodeFrom_ascii (by omega), hchar rfl]⟩
  split
  · have hlead : v / 64 % 32 = v / 64 := Nat.mod_eq_of_lt (by omega)
    rw [hlead, List.cons_append, List.singleton_append,
      decodeFrom_lead (by omega) (by omega) (lead_two (by omega) (by omega)),
      decodeFrom_last (show 0x80 ≤ _ by omega) (show _ ≤ 0xBF by omega) (by omega) rfl]
    exact ⟨_, by rw [hchar (by dsimp only; omega)]⟩
  split
  · have hlead : v / 4096 % 16 = v / 4096 := Nat.mod_eq_of_lt (by omega)
    obtain ⟨low, high, h, hlow, hhigh⟩ :=
      @lead_three (v / 4096) offset (by omega)
    have hbelow : low ≤ v / 64 % 64 + 128 := by
      rw [hlow]
      split <;> omega
    have habove : v / 64 % 64 + 128 ≤ high := by
      rw [hhigh]
      split <;> omega
    rw [hlead, List.cons_append, List.cons_append, List.singleton_append,
      decodeFrom_lead (by omega) (by omega) h, decodeFrom_owed hbelow habove (by omega) rfl,
      decodeFrom_last (show 0x80 ≤ _ by omega) (show _ ≤ 0xBF by omega) (by omega) rfl]
    exact ⟨_, by rw [hchar (by dsimp only; omega)]⟩
  · have hlead : v / 262144 % 8 = v / 262144 := Nat.mod_eq_of_lt (by omega)
    obtain ⟨low, high, h, hlow, hhigh⟩ :=
      @lead_four (v / 262144) offset (by omega)
    have hbelow : low ≤ v / 4096 % 64 + 128 := by
      rw [hlow]
      split <;> omega
    have habove : v / 4096 % 64 + 128 ≤ high := by
      rw [hhigh]
      split <;> omega
    rw [hlead, List.cons_append, List.cons_append, List.cons_append, List.singleton_append,
      decodeFrom_lead (by omega) (by omega) h, decodeFrom_owed hbelow habove (by omega) rfl,
      decodeFrom_owed (show 0x80 ≤ _ by omega) (show _ ≤ 0xBF by omega) (by omega) rfl,
      decodeFrom_last (show 0x80 ≤ _ by omega) (show _ ≤ 0xBF by omega) (by omega) rfl]
    exact ⟨_, by rw [hchar (by dsimp only; omega)]⟩

/-- The bytes of characters are decoded into them. -/
theorem decode_encode (cs : List Char) : decode (encode cs) = .ok cs := by
  suffices h : ∀ offset, decodeFrom offset none (encode cs) = .ok cs from h 0
  induction cs with
  | nil => exact fun _ => rfl
  | cons c cs ih =>
    intro offset
    obtain ⟨offset', h⟩ := decodeFrom_encodeChar c offset (encode cs)
    rw [show encode (c :: cs) = String.utf8EncodeChar c ++ encode cs from rfl, h, ih]
    rfl

/-! ## Bytes that are decoded -/

section Decoded

variable {offset v : Nat} {b : UInt8} {bs : List UInt8} {cs : List Char} {p : Partial}

/-- A byte between sequences is a character or starts a sequence. -/
theorem cases_of_decodeFrom_none (h : decodeFrom offset none (b :: bs) = .ok cs) :
    (b.toNat < 0x80 ∧ ∃ cs', cs = Char.ofNat b.toNat :: cs' ∧
      decodeFrom (offset + 1) none bs = .ok cs') ∨
    ∃ p, lead b offset = some p ∧ decodeFrom (offset + 1) (some p) bs = .ok cs := by
  rw [decodeFrom] at h
  split at h
  · rename_i hb
    rcases hrest : decodeFrom (offset + 1) none bs with fault | cs' <;> rw [hrest] at h <;> cases h
    exact .inl ⟨hb, cs', rfl, rfl⟩
  · split at h
    · exact .inr ⟨_, ‹_›, h⟩
    · cases h

/-- A sequence that was begun goes on with a byte in its range. -/
theorem cases_of_decodeFrom_some (h : decodeFrom offset (some p) bs = .ok cs) :
    ∃ b rest, bs = b :: rest ∧ p.low ≤ b.toNat ∧ b.toNat ≤ p.high ∧
      match p.owed with
      | 0 => ∃ cs', cs = Char.ofNat (p.value * 64 + (b.toNat - 0x80)) :: cs' ∧
          decodeFrom (offset + 1) none rest = .ok cs'
      | owed + 1 => decodeFrom (offset + 1)
          (some ⟨p.lead, p.start, p.value * 64 + (b.toNat - 0x80), owed, 0x80, 0xBF⟩) rest =
            .ok cs := by
  cases bs with
  | nil => cases h
  | cons b rest =>
    rw [decodeFrom] at h
    dsimp only at h
    split at h
    · rename_i hb
      refine ⟨b, rest, rfl, hb.1, hb.2, ?_⟩
      generalize p.owed = n at h ⊢
      cases n with
      | zero =>
        dsimp only at h
        rcases hrest : decodeFrom (offset + 1) none rest with fault | cs' <;> rw [hrest] at h <;>
          cases h
        exact ⟨cs', rfl, rfl⟩
      | succ owed => exact h
    · cases h

/-- The bytes that start a sequence, by its length. -/
theorem cases_of_lead (h : lead b offset = some p) :
    (0xC2 ≤ b.toNat ∧ b.toNat ≤ 0xDF ∧ p = ⟨b, offset, b.toNat - 0xC0, 0, 0x80, 0xBF⟩) ∨
    (0xE0 ≤ b.toNat ∧ b.toNat ≤ 0xEF ∧ ∃ low high, p = ⟨b, offset, b.toNat - 0xE0, 1, low, high⟩ ∧
      0x80 ≤ low ∧ high ≤ 0xBF ∧ (b.toNat = 0xE0 → 0xA0 ≤ low) ∧ (b.toNat = 0xED → high ≤ 0x9F)) ∨
    (0xF0 ≤ b.toNat ∧ b.toNat ≤ 0xF4 ∧ ∃ low high, p = ⟨b, offset, b.toNat - 0xF0, 2, low, high⟩ ∧
      0x80 ≤ low ∧ high ≤ 0xBF ∧ (b.toNat = 0xF0 → 0x90 ≤ low) ∧ (b.toNat = 0xF4 → high ≤ 0x8F)) := by
  unfold lead at h
  dsimp only at h
  split at h
  · cases h
    exact .inl ⟨by omega, by omega, rfl⟩
  split at h
  · rename_i hb
    cases h
    exact .inr (.inl ⟨by omega, by omega, _, _, by rw [hb], by omega, by omega, by omega, by omega⟩)
  split at h
  · rename_i hb
    cases h
    exact .inr (.inl ⟨by omega, by omega, _, _, by rw [hb], by omega, by omega, by omega, by omega⟩)
  split at h
  · cases h
    exact .inr (.inl ⟨by omega, by omega, _, _, rfl, by omega, by omega, by omega, by omega⟩)
  split at h
  · rename_i hb
    cases h
    exact .inr (.inr ⟨by omega, by omega, _, _, by rw [hb], by omega, by omega, by omega, by omega⟩)
  split at h
  · cases h
    exact .inr (.inr ⟨by omega, by omega, _, _, rfl, by omega, by omega, by omega, by omega⟩)
  split at h
  · rename_i hb
    cases h
    exact .inr (.inr ⟨by omega, by omega, _, _, by rw [hb], by omega, by omega, by omega, by omega⟩)
  · cases h

theorem toNat_ofNat_of_valid (h : v.isValidChar) : (Char.ofNat v).toNat = v := by
  rw [Char.ofNat, dif_pos h]
  rfl

/-- The bytes of a code point are some bytes if these have its digits to base 64. -/
theorem encodeChar_ofNat (hv : v.isValidChar) : String.utf8EncodeChar (.ofNat v) =
    if v ≤ 0x7F then [.ofNat v]
    else if v ≤ 0x7FF then [.ofNat (v / 64 % 32 + 192), .ofNat (v % 64 + 128)]
    else if v ≤ 0xFFFF then
      [.ofNat (v / 4096 % 16 + 224), .ofNat (v / 64 % 64 + 128), .ofNat (v % 64 + 128)]
    else [.ofNat (v / 262144 % 8 + 240), .ofNat (v / 4096 % 64 + 128), .ofNat (v / 64 % 64 + 128),
      .ofNat (v % 64 + 128)] := by
  have hval : (Char.ofNat v).val.toNat = v := toNat_ofNat_of_valid hv
  unfold String.utf8EncodeChar
  rw [hval]

theorem ofNat_eq_of_toNat {n : Nat} (h : n = b.toNat) : UInt8.ofNat n = b := by
  rw [h, UInt8.ofNat_toNat]

/-- The first character that bytes are decoded into has the first of the bytes. -/
theorem first_of_decodeFrom (h : decodeFrom offset none (b :: bs) = .ok cs) :
    ∃ c cs' rest offset', cs = c :: cs' ∧ b :: bs = String.utf8EncodeChar c ++ rest ∧
      decodeFrom offset' none rest = .ok cs' := by
  have hbound : b.toNat < 256 := b.toNat_lt
  rcases cases_of_decodeFrom_none h with ⟨hb, cs', hcs, hrest⟩ | ⟨p, hlead, h₁⟩
  · refine ⟨_, cs', bs, _, hcs, ?_, hrest⟩
    rw [encodeChar_ofNat (.inl (by omega)), if_pos (by omega), UInt8.ofNat_toNat]
    rfl
  obtain ⟨b₁, bs₁, hbs₁, hlow₁, hhigh₁, h₁⟩ := cases_of_decodeFrom_some h₁
  rcases cases_of_lead hlead with ⟨hb, hb', rfl⟩ | ⟨hb, hb', low, high, rfl, hl, hh, he, hd⟩ |
    ⟨hb, hb', low, high, rfl, hl, hh, he, hd⟩ <;> dsimp only at hlow₁ hhigh₁ h₁
  · obtain ⟨cs', hcs, hrest⟩ := h₁
    refine ⟨_, cs', bs₁, _, hcs, ?_, hrest⟩
    rw [encodeChar_ofNat (.inl (by omega)), if_neg (by omega), if_pos (by omega),
      ofNat_eq_of_toNat (b := b) (by omega), ofNat_eq_of_toNat (b := b₁) (by omega), hbs₁]
    rfl
  · obtain ⟨b₂, bs₂, hbs₂, hlow₂, hhigh₂, cs', hcs, hrest⟩ := cases_of_decodeFrom_some h₁
    dsimp only at hlow₂ hhigh₂ hcs
    refine ⟨_, cs', bs₂, _, hcs, ?_, hrest⟩
    rw [encodeChar_ofNat (by unfold Nat.isValidChar; omega), if_neg (by omega), if_neg (by omega),
      if_pos (by omega), ofNat_eq_of_toNat (b := b) (by omega),
      ofNat_eq_of_toNat (b := b₁) (by omega), ofNat_eq_of_toNat (b := b₂) (by omega), hbs₁, hbs₂]
    rfl
  · obtain ⟨b₂, bs₂, hbs₂, hlow₂, hhigh₂, h₂⟩ := cases_of_decodeFrom_some h₁
    obtain ⟨b₃, bs₃, hbs₃, hlow₃, hhigh₃, cs', hcs, hrest⟩ := cases_of_decodeFrom_some h₂
    dsimp only at hlow₂ hhigh₂ hlow₃ hhigh₃ hcs
    refine ⟨_, cs', bs₃, _, hcs, ?_, hrest⟩
    rw [encodeChar_ofNat (by unfold Nat.isValidChar; omega), if_neg (by omega), if_neg (by omega),
      if_neg (by omega), ofNat_eq_of_toNat (b := b) (by omega),
      ofNat_eq_of_toNat (b := b₁) (by omega), ofNat_eq_of_toNat (b := b₂) (by omega),
      ofNat_eq_of_toNat (b := b₃) (by omega), hbs₁, hbs₂, hbs₃]
    rfl

/-- Bytes that are decoded are those of the characters. -/
theorem eq_encode_of_decodeFrom (h : decodeFrom offset none bs = .ok cs) : bs = encode cs := by
  induction hn : bs.length using Nat.strongRecOn generalizing offset bs cs with
  | ind n ih =>
    cases bs with
    | nil =>
      cases h
      rfl
    | cons b bs =>
      obtain ⟨c, cs', rest, offset', rfl, hbytes, hrest⟩ := first_of_decodeFrom h
      have hlength := congrArg List.length hbytes
      rw [List.length_append, String.length_utf8EncodeChar] at hlength
      have hpos := c.utf8Size_pos
      rw [hbytes, ih rest.length (by omega) hrest rfl]
      rfl

end Decoded

/-- Bytes are decoded into characters exactly if they are the bytes of these. -/
theorem decode_eq_ok_iff {bs : List UInt8} {cs : List Char} :
    decode bs = .ok cs ↔ bs = encode cs := by
  constructor
  · exact eq_encode_of_decodeFrom
  · rintro rfl
    exact decode_encode cs

theorem encode_injective : Function.Injective encode := fun cs cs' h => by
  have hdecode := decode_encode cs
  rw [h, decode_encode] at hdecode
  exact (Except.ok.inj hdecode).symm

end TypedLinks.Utf8
