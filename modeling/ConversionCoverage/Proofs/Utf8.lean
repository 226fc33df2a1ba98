import ConversionCoverage.Text.Utf8

/-!
# UTF-8 round trip

The bytes of a text that can be encoded are decoded to the text.
-/

namespace ConversionCoverage.Utf8

theorem toNat_ofNat_of_lt {n : Nat} (h : n < 256) : (UInt8.ofNat n).toNat = n := by
  rw [UInt8.toNat_ofNat', Nat.mod_eq_of_lt h]

/-- The bytes of a text, read one after the other, whatever their offset. -/
def Decodes (open? : Option Unfinished) (bytes : List UInt8) (t : Text) : Prop :=
  ∀ offset, decodeFrom offset open? bytes = .ok t

theorem Decodes.last {first low high : UInt8} {start value n : Nat} {c : Char}
    {bytes : List UInt8} {t : Text} (h : Decodes none bytes t)
    (hlow : low.toNat ≤ n) (hhigh : n ≤ high.toNat) (hc : value * 64 + (n - 0x80) = c.toNat) :
    Decodes (some ⟨first, start, 1, low, high, value⟩) (UInt8.ofNat n :: bytes) (.char c :: t) := by
  have hn : (UInt8.ofNat n).toNat = n :=
    toNat_ofNat_of_lt (Nat.lt_of_le_of_lt hhigh high.toNat_lt)
  intro offset
  rw [decodeFrom]
  simp only [UInt8.le_iff_toNat_le, hn, hlow, hhigh, hc, h (offset + 1), Char.ofNat_toNat,
    and_self, if_true, Nat.le_refl]
  rfl

theorem Decodes.more {first low high : UInt8} {start missing value n : Nat}
    {bytes : List UInt8} {t : Text} (hlow : low.toNat ≤ n) (hhigh : n ≤ high.toNat)
    (h : Decodes (some ⟨first, start, missing + 1, 0x80, 0xBF, value * 64 + (n - 0x80)⟩) bytes t) :
    Decodes (some ⟨first, start, missing + 2, low, high, value⟩) (UInt8.ofNat n :: bytes) t := by
  have hn : (UInt8.ofNat n).toNat = n :=
    toNat_ofNat_of_lt (Nat.lt_of_le_of_lt hhigh high.toNat_lt)
  intro offset
  rw [decodeFrom]
  simp only [UInt8.le_iff_toNat_le, hn, hlow, hhigh, and_self, if_true]
  exact h (offset + 1)

theorem Decodes.first {missing value n : Nat} {low high : UInt8} {bytes : List UInt8} {t : Text}
    (hn : 0x80 ≤ n) (hn' : n < 256)
    (hopen : ∀ offset, Unfinished.ofFirst? (UInt8.ofNat n) offset =
      some ⟨UInt8.ofNat n, offset, missing, low, high, value⟩)
    (h : ∀ start, Decodes (some ⟨UInt8.ofNat n, start, missing, low, high, value⟩) bytes t) :
    Decodes none (UInt8.ofNat n :: bytes) t := by
  intro offset
  have hlt : ¬ UInt8.ofNat n < 0x80 := by
    rw [UInt8.lt_iff_toNat_lt, toNat_ofNat_of_lt hn']
    simpa using hn
  rw [decodeFrom]
  simp only [if_neg hlt, hopen offset]
  exact h offset (offset + 1)

theorem ofFirst?_ofNat {n : Nat} (h : n < 256) (offset : Nat) :
    Unfinished.ofFirst? (UInt8.ofNat n) offset =
      if 0xC2 ≤ n ∧ n ≤ 0xDF then some ⟨UInt8.ofNat n, offset, 1, 0x80, 0xBF, n - 0xC0⟩
      else if n = 0xE0 then some ⟨UInt8.ofNat n, offset, 2, 0xA0, 0xBF, 0⟩
      else if n = 0xED then some ⟨UInt8.ofNat n, offset, 2, 0x80, 0x9F, 0xD⟩
      else if 0xE1 ≤ n ∧ n ≤ 0xEF then some ⟨UInt8.ofNat n, offset, 2, 0x80, 0xBF, n - 0xE0⟩
      else if n = 0xF0 then some ⟨UInt8.ofNat n, offset, 3, 0x90, 0xBF, 0⟩
      else if 0xF1 ≤ n ∧ n ≤ 0xF3 then some ⟨UInt8.ofNat n, offset, 3, 0x80, 0xBF, n - 0xF0⟩
      else if n = 0xF4 then some ⟨UInt8.ofNat n, offset, 3, 0x80, 0x8F, 4⟩
      else none := by
  simp only [Unfinished.ofFirst?, UInt8.le_iff_toNat_le, ← UInt8.toNat_inj, toNat_ofNat_of_lt h]
  rfl

variable {c : Char} {bytes : List UInt8} {t : Text} (h : Decodes none bytes t)
include h

private theorem decodes_one (hc : c.toNat ≤ 0x7F) :
    Decodes none (UInt8.ofNat c.toNat :: bytes) (.char c :: t) := by
  intro offset
  have hn : (UInt8.ofNat c.toNat).toNat = c.toNat := toNat_ofNat_of_lt (by omega)
  have hlt : UInt8.ofNat c.toNat < 0x80 := by
    rw [UInt8.lt_iff_toNat_lt, hn]
    exact Nat.lt_succ_of_le hc
  rw [decodeFrom]
  simp only [hlt, if_true, hn, Char.ofNat_toNat, h (offset + 1)]
  rfl

private theorem decodes_two (hlow : 0x7F < c.toNat) (hhigh : c.toNat ≤ 0x7FF) :
    Decodes none (UInt8.ofNat (c.toNat / 64 % 32 + 0xC0) ::
      UInt8.ofNat (c.toNat % 64 + 0x80) :: bytes) (.char c :: t) := by
  have hopen : ∀ offset, Unfinished.ofFirst? (UInt8.ofNat (c.toNat / 64 % 32 + 0xC0)) offset =
      some ⟨UInt8.ofNat (c.toNat / 64 % 32 + 0xC0), offset, 1, 0x80, 0xBF, c.toNat / 64⟩ := by
    intro offset
    rw [ofFirst?_ofNat (by omega), if_pos (by omega), show
      c.toNat / 64 % 32 + 0xC0 - 0xC0 = c.toNat / 64 by omega]
  apply Decodes.first (by omega) (by omega) hopen
  intro start
  apply h.last
  · exact Nat.le_add_left _ _
  · show _ ≤ 0xBF
    omega
  · omega

theorem decodes_lastTwo {first low high : UInt8} {start : Nat}
    (hlow : low.toNat ≤ c.toNat / 64 % 64 + 0x80) (hhigh : c.toNat / 64 % 64 + 0x80 ≤ high.toNat) :
    Decodes (some ⟨first, start, 2, low, high, c.toNat / 4096⟩)
      (UInt8.ofNat (c.toNat / 64 % 64 + 0x80) :: UInt8.ofNat (c.toNat % 64 + 0x80) :: bytes)
      (.char c :: t) := by
  apply Decodes.more hlow hhigh
  apply h.last
  · exact Nat.le_add_left _ _
  · show _ ≤ 0xBF
    omega
  · omega

private theorem decodes_three (hlow : 0x7FF < c.toNat) (hhigh : c.toNat ≤ 0xFFFF) :
    Decodes none (UInt8.ofNat (c.toNat / 4096 % 16 + 0xE0) ::
      UInt8.ofNat (c.toNat / 64 % 64 + 0x80) :: UInt8.ofNat (c.toNat % 64 + 0x80) :: bytes)
      (.char c :: t) := by
  have hvalid : c.toNat < 0xD800 ∨ 0xDFFF < c.toNat ∧ c.toNat < 0x110000 := c.valid
  have hrange : ∀ low high : UInt8, (∀ offset, Unfinished.ofFirst?
      (UInt8.ofNat (c.toNat / 4096 % 16 + 0xE0)) offset = some
        ⟨UInt8.ofNat (c.toNat / 4096 % 16 + 0xE0), offset, 2, low, high, c.toNat / 4096⟩) →
      low.toNat ≤ c.toNat / 64 % 64 + 0x80 → c.toNat / 64 % 64 + 0x80 ≤ high.toNat → _ :=
    fun low high hopen hlow' hhigh' => Decodes.first (by omega) (by omega) hopen
      fun start => decodes_lastTwo h hlow' hhigh'
  -- Two of the first bytes narrow the range of the second byte.
  by_cases h0 : c.toNat / 4096 = 0
  · apply hrange 0xA0 0xBF
    · intro offset
      rw [h0]
      rfl
    · show 0xA0 ≤ _
      omega
    · show _ ≤ 0xBF
      omega
  · by_cases h13 : c.toNat / 4096 = 13
    · apply hrange 0x80 0x9F
      · intro offset
        rw [h13]
        rfl
      · exact Nat.le_add_left _ _
      · show _ ≤ 0x9F
        omega
    · apply hrange 0x80 0xBF
      · intro offset
        rw [ofFirst?_ofNat (by omega), if_neg (by omega), if_neg (by omega), if_neg (by omega),
          if_pos (by omega), show c.toNat / 4096 % 16 + 0xE0 - 0xE0 = c.toNat / 4096 by omega]
      · exact Nat.le_add_left _ _
      · show _ ≤ 0xBF
        omega

private theorem decodes_four (hlow : 0xFFFF < c.toNat) :
    Decodes none (UInt8.ofNat (c.toNat / 262144 % 8 + 0xF0) ::
      UInt8.ofNat (c.toNat / 4096 % 64 + 0x80) :: UInt8.ofNat (c.toNat / 64 % 64 + 0x80) ::
      UInt8.ofNat (c.toNat % 64 + 0x80) :: bytes) (.char c :: t) := by
  have hvalid : c.toNat < 0xD800 ∨ 0xDFFF < c.toNat ∧ c.toNat < 0x110000 := c.valid
  have hvalue : c.toNat / 262144 * 64 + (c.toNat / 4096 % 64 + 0x80 - 0x80) =
      c.toNat / 4096 := by omega
  have hlast : ∀ first start, Decodes (some ⟨first, start, 2, 0x80, 0xBF,
      c.toNat / 262144 * 64 + (c.toNat / 4096 % 64 + 0x80 - 0x80)⟩)
      (UInt8.ofNat (c.toNat / 64 % 64 + 0x80) :: UInt8.ofNat (c.toNat % 64 + 0x80) :: bytes)
      (.char c :: t) := by
    intro first start
    rw [hvalue]
    apply decodes_lastTwo h
    · exact Nat.le_add_left _ _
    · show _ ≤ 0xBF
      omega
  have hrange : ∀ low high : UInt8, (∀ offset, Unfinished.ofFirst?
      (UInt8.ofNat (c.toNat / 262144 % 8 + 0xF0)) offset = some
        ⟨UInt8.ofNat (c.toNat / 262144 % 8 + 0xF0), offset, 3, low, high, c.toNat / 262144⟩) →
      low.toNat ≤ c.toNat / 4096 % 64 + 0x80 → c.toNat / 4096 % 64 + 0x80 ≤ high.toNat → _ :=
    fun low high hopen hlow' hhigh' => Decodes.first (by omega) (by omega) hopen
      fun start => Decodes.more hlow' hhigh' (hlast _ start)
  by_cases h0 : c.toNat / 262144 = 0
  · apply hrange 0x90 0xBF
    · intro offset
      rw [h0]
      rfl
    · show 0x90 ≤ _
      omega
    · show _ ≤ 0xBF
      omega
  · by_cases h4 : c.toNat / 262144 = 4
    · apply hrange 0x80 0x8F
      · intro offset
        rw [h4]
        rfl
      · exact Nat.le_add_left _ _
      · show _ ≤ 0x8F
        omega
    · apply hrange 0x80 0xBF
      · intro offset
        rw [ofFirst?_ofNat (by omega), if_neg (by omega), if_neg (by omega), if_neg (by omega),
          if_neg (by omega), if_neg (by omega), if_pos (by omega),
          show c.toNat / 262144 % 8 + 0xF0 - 0xF0 = c.toNat / 262144 by omega]
      · exact Nat.le_add_left _ _
      · show _ ≤ 0xBF
        omega

private theorem decodes_char (c : Char) :
    Decodes none (String.utf8EncodeChar c ++ bytes) (.char c :: t) := by
  unfold String.utf8EncodeChar
  simp only
  split
  · rename_i h1
    exact decodes_one h h1
  · rename_i h1
    split
    · rename_i h2
      exact decodes_two h (Nat.lt_of_not_le h1) h2
    · rename_i h2
      split
      · rename_i h3
        exact decodes_three h (Nat.lt_of_not_le h2) h3
      · rename_i h3
        exact decodes_four h (Nat.lt_of_not_le h3)

omit h

private theorem decodes_flatMap (cs : List Char) :
    Decodes none (cs.flatMap String.utf8EncodeChar) (cs.map .char) := by
  induction cs with
  | nil => exact fun _ => rfl
  | cons c cs ih => exact decodes_char ih c

/-- Decoding undoes encoding. -/
theorem decode_of_encode {t : Text} {bytes : List UInt8} (h : encode t = .ok bytes) :
    decode bytes = .ok t := by
  obtain ⟨cs, rfl, rfl⟩ := encodeFrom_eq_ok_iff.mp h
  exact decodes_flatMap cs 0

end ConversionCoverage.Utf8
