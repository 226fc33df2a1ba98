import ConversionCoverage.Proofs.Digits
import ConversionCoverage.Proofs.Rounding
import Mathlib.Data.List.TakeWhile

/-!
# Decimals of doubles

The digits that are chosen for a double are read as the double. Zeros that move between the digits
and the exponent of a decimal do not change the double that it is rounded to.
-/

namespace ConversionCoverage.Binary64

open Text

theorem digitCount_le_iff {n k : Nat} (hk : 0 < k) : digitCount n ≤ k ↔ n < 10 ^ k :=
  Nat.length_toDigits_le_iff (by decide) hk

theorem digitCount_pos (n : Nat) : 0 < digitCount n := Nat.length_toDigits_pos

theorem digitCount_mono {n m : Nat} (h : n ≤ m) : digitCount n ≤ digitCount m := by
  rw [digitCount_le_iff (digitCount_pos m)]
  exact Nat.lt_of_le_of_lt h ((digitCount_le_iff (digitCount_pos m)).mp (Nat.le_refl _))

private theorem digitCount_mul_pow {n : Nat} (hn : 0 < n) (z : Nat) :
    digitCount (n * 10 ^ z) = digitCount n + z := by
  have hpos : 0 < 10 ^ z := by positivity
  have hcount := digitCount_pos n
  apply Nat.le_antisymm
  · rw [digitCount_le_iff (by omega), Nat.pow_add]
    exact Nat.mul_lt_mul_of_pos_right ((digitCount_le_iff hcount).mp (Nat.le_refl _)) hpos
  · by_contra hlt
    have hsmall : digitCount (n * 10 ^ z) ≤ digitCount n - 1 + z := by omega
    have hbelow : n < 10 ^ (digitCount n - 1) := by
      rcases Nat.eq_zero_or_pos (digitCount n - 1 + z) with hzero | hk
      · have hpos' := digitCount_pos (n * 10 ^ z)
        omega
      · rw [digitCount_le_iff hk, Nat.pow_add] at hsmall
        exact Nat.lt_of_mul_lt_mul_right hsmall
    rcases Nat.eq_zero_or_pos (digitCount n - 1) with hone | hk
    · rw [hone, Nat.pow_zero] at hbelow
      omega
    · have hcontra := (digitCount_le_iff hk).mpr hbelow
      omega

theorem ofDecimal_mul_pow (negative : Bool) (digits z : Nat) (exponent : Int) :
    ofDecimal negative (digits * 10 ^ z) (exponent - z) = ofDecimal negative digits exponent := by
  rcases Nat.eq_zero_or_pos digits with rfl | hdigits
  · simp [ofDecimal]
  · have hne : digits * 10 ^ z ≠ 0 := Nat.ne_of_gt (by positivity)
    have htop : ((digitCount (digits * 10 ^ z) : Nat) : Int) + (exponent - z) =
        digitCount digits + exponent := by
      rw [digitCount_mul_pow hdigits]
      push_cast
      ring
    have hpowers : 10 ^ z * 10 ^ (exponent - z).toNat * 10 ^ (-exponent).toNat =
        10 ^ exponent.toNat * 10 ^ (-(exponent - z)).toNat := by
      rw [← Nat.pow_add, ← Nat.pow_add, ← Nat.pow_add]
      congr 1
      omega
    have hround : ofRatio negative (digits * 10 ^ z * 10 ^ (exponent - z).toNat)
          (10 ^ (-(exponent - z)).toNat) =
        ofRatio negative (digits * 10 ^ exponent.toNat) (10 ^ (-exponent).toNat) := by
      apply ofRatio_congr negative (by positivity) (by positivity)
      rw [Nat.mul_assoc, Nat.mul_assoc, Nat.mul_assoc, ← hpowers, Nat.mul_assoc]
    simp only [ofDecimal, hne, Nat.ne_of_gt hdigits, false_or, htop]
    split
    · rfl
    · split
      · rfl
      · exact hround

private theorem ofRatio_of_false {n d m : Nat} {e : Int} (negative : Bool)
    (h : ofRatio false n d = .finite false m e) : ofRatio negative n d = .finite negative m e := by
  unfold ofRatio zero at *
  split at h
  · cases h
    simp only [*, if_true]
  · rename_i hn
    simp only [hn, if_false] at h ⊢
    split at h
    · cases h
    · rename_i he
      cases h
      rw [if_neg he]

private theorem ofDecimal_of_false {digits m : Nat} {exponent e : Int} (negative : Bool)
    (h : ofDecimal false digits exponent = .finite false m e) :
    ofDecimal negative digits exponent = .finite negative m e := by
  unfold ofDecimal at *
  simp only at h ⊢
  split at h
  · rename_i hzero
    cases h
    rw [if_pos hzero, zero]
  · rename_i hzero
    rw [if_neg hzero]
    split at h
    · cases h
    · rename_i htop
      rw [if_neg htop]
      exact ofRatio_of_false negative h

private theorem ofDecimal_shiftLeft {m : Nat} {e : Int} (hx : (finite false m e).Stored)
    (hm : m ≠ 0) (he : 0 ≤ e) : ofDecimal false (m <<< e.toNat) 0 = .finite false m e := by
  have hdigits : 0 < m <<< e.toNat := by
    rw [Nat.shiftLeft_eq]
    positivity
  have hlow := digitCount_pos (m <<< e.toNat)
  have hhigh : digitCount (m <<< e.toNat) ≤ 310 := by
    have htop : e ≤ 971 := hx.2.1
    have hmax : e.toNat ≤ 971 := by omega
    rw [digitCount_le_iff (by decide), Nat.shiftLeft_eq]
    calc m * 2 ^ e.toNat < 2 ^ 53 * 2 ^ e.toNat := by gcongr; exact hx.2.2.1
      _ = 2 ^ (53 + e.toNat) := (Nat.pow_add 2 53 e.toNat).symm
      _ ≤ 2 ^ 1024 := Nat.pow_le_pow_right (by decide) (by omega)
      _ < 10 ^ 310 := by decide +kernel
  have hround : ofRatio false (m <<< e.toNat) 1 = .finite false m e := by
    have hzero : (-e).toNat = 0 := by omega
    apply ofRatio_exact hx hm Nat.one_pos
    rw [hzero, Nat.shiftLeft_zero, Nat.shiftLeft_eq, Nat.shiftLeft_eq, Nat.one_mul]
  rw [ofDecimal, if_neg (by omega), if_neg (by omega)]
  simpa using hround

private theorem ofDecimal_mul_five_pow {m k : Nat} (hx : (finite false m (-k)).Stored)
    (hm : m ≠ 0) :
    ofDecimal false (m * 5 ^ k) (-k) = .finite false m (-k) := by
  have hbottom : (-1074 : Int) ≤ -k := hx.1
  have hk : k ≤ 1074 := by omega
  have hdigits : 0 < m * 5 ^ k := by positivity
  -- The first digit is neither below the least double nor above the greatest.
  have hlow : k ≤ digitCount (m * 5 ^ k) + 330 := by
    by_contra hlt
    have hcount := digitCount_pos (m * 5 ^ k)
    have hsmall : m * 5 ^ k < 10 ^ (k - 331) :=
      (digitCount_le_iff (by omega)).mp (by omega)
    have hpow : 10 ^ (k - 331) * 10 ^ 331 = 5 ^ k * 2 ^ k := by
      rw [← Nat.pow_add, ← Nat.mul_pow, Nat.sub_add_cancel (by omega)]
    have hcontra : 5 ^ k * 10 ^ 331 < 5 ^ k * 2 ^ 1074 :=
      calc 5 ^ k * 10 ^ 331 ≤ m * 5 ^ k * 10 ^ 331 := by
            gcongr
            exact Nat.le_mul_of_pos_left _ (Nat.pos_of_ne_zero hm)
        _ < 10 ^ (k - 331) * 10 ^ 331 := by gcongr
        _ = 5 ^ k * 2 ^ k := hpow
        _ ≤ 5 ^ k * 2 ^ 1074 := by gcongr; decide
    exact absurd (Nat.lt_of_mul_lt_mul_left hcontra) (by decide +kernel)
  have hhigh : digitCount (m * 5 ^ k) ≤ k + 310 := by
    rw [digitCount_le_iff (by omega), Nat.mul_comm, Nat.pow_add]
    have hm' : m < 10 ^ 310 := Nat.lt_trans hx.2.2.1 (by decide +kernel)
    calc 5 ^ k * m < 5 ^ k * 10 ^ 310 := by gcongr
      _ ≤ 10 ^ k * 10 ^ 310 := by gcongr; decide
  have hround : ofRatio false (m * 5 ^ k) (10 ^ k) = .finite false m (-k) := by
    rw [ofRatio_congr false (by positivity) (Nat.two_pow_pos k)
      (show m * 5 ^ k * 2 ^ k = m * 10 ^ k by rw [Nat.mul_assoc, ← Nat.mul_pow])]
    apply ofRatio_exact hx hm (Nat.two_pow_pos k)
    simp [Nat.shiftLeft_eq]
  rw [ofDecimal, if_neg (by omega), if_neg (by omega)]
  simpa using hround

theorem ofDecimal_expansion {m : Nat} {e : Int} (hx : (finite false m e).Stored) (hm : m ≠ 0) :
    ofDecimal false (expansion m e).1 (expansion m e).2 = .finite false m e := by
  unfold expansion
  split
  · rename_i he
    exact ofDecimal_shiftLeft hx hm he
  · rename_i he
    obtain ⟨k, rfl⟩ : ∃ k : Nat, e = -k := ⟨(-e).toNat, by omega⟩
    simpa using ofDecimal_mul_five_pow hx hm

/-- The digits that are chosen are read as the double. -/
theorem ofDecimal_shortest {m : Nat} {e : Int} (negative : Bool)
    (hx : (finite false m e).Stored) (hm : m ≠ 0) :
    ofDecimal negative (shortest m e).1 (shortest m e).2 = .finite negative m e := by
  apply ofDecimal_of_false
  unfold shortest
  generalize leadingPlace m e = top
  cases hfound : (List.range 17).findSome? fun (i : Nat) => decimalAt? m e (top - i) with
  | none =>
    simp only [hfound, Option.getD_none]
    exact ofDecimal_expansion hx hm
  | some decimal =>
    obtain ⟨i, -, hi⟩ := List.exists_of_findSome?_eq_some hfound
    obtain ⟨digits, hdigits, hdecimal⟩ := Option.map_eq_some_iff.mp hi
    simp only [hfound, Option.getD_some, ← hdecimal]
    simpa using List.find?_some hdigits

theorem significantDigits_eq {digits : Nat} (h : 0 < digits) (exponent : Int) :
    ∃ shown z, ofNat digits = shown ++ zeros z ∧ (∃ c t, shown = c :: t ∧ c ≠ .char '0') ∧
      significantDigits digits exponent = (shown, shown.length + z + exponent) := by
  have hsplit := (ofNat digits).reverse.takeWhile_append_dropWhile (p := (· = .char '0'))
  obtain ⟨z, hz⟩ : ∃ z, (ofNat digits).reverse.takeWhile (· = .char '0') = zeros z := by
    refine ⟨_, List.eq_replicate_of_mem fun c hc => ?_⟩
    simpa using List.mem_takeWhile_imp hc
  obtain ⟨shown, hshown⟩ : ∃ shown,
      ((ofNat digits).reverse.dropWhile (· = .char '0')).reverse = shown := ⟨_, rfl⟩
  have hdigits : ofNat digits = shown ++ zeros z := by
    rw [← List.reverse_reverse (ofNat digits), ← hsplit, List.reverse_append, hshown, hz, zeros,
      List.reverse_replicate]
  obtain ⟨c, t, hcons, hc⟩ := exists_ofNat_eq_cons h
  refine ⟨shown, z, hdigits, ?_, ?_⟩
  · cases shown with
    | nil =>
      rw [hcons, List.nil_append] at hdigits
      have hzero : c ∈ zeros z := hdigits ▸ List.mem_cons_self
      exact absurd (List.mem_replicate.mp hzero).2 hc
    | cons d u =>
      rw [hcons, List.cons_append] at hdigits
      exact ⟨d, u, rfl, (List.cons.inj hdigits).1 ▸ hc⟩
  · have hlength : (ofNat digits).length = shown.length + z := by
      rw [hdigits, List.length_append, zeros, List.length_replicate]
    simp only [significantDigits, hshown, hlength]
    push_cast
    rfl

end ConversionCoverage.Binary64
