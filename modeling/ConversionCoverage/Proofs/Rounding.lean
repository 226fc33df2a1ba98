import ConversionCoverage.Binary64
import Mathlib.Algebra.Order.Field.Power
import Mathlib.Data.Int.Log
import Mathlib.Data.Rat.Floor
import Mathlib.Tactic.Positivity
import Mathlib.Tactic.Ring

/-!
# Rounding to doubles

The double that a quotient is rounded to depends on its value alone, and it is in the form that a
double is stored in. A quotient that is a double already is rounded to itself.
-/

namespace ConversionCoverage.Binary64

/-- The numbers in the form that a double is stored in. -/
def Stored : Binary64 → Prop
  | .finite _ m e => -1074 ≤ e ∧ e ≤ 971 ∧ m < 2 ^ 53 ∧ (2 ^ 52 ≤ m ∨ e = -1074)
  | _ => True

theorem divNearest_mul_right (n d : Nat) {c : Nat} (hc : 0 < c) :
    divNearest (n * c) (d * c) = divNearest n d := by
  have hlow : 2 * (n % d * c) < d * c ↔ 2 * (n % d) < d := by
    rw [← Nat.mul_assoc, Nat.mul_lt_mul_right hc]
  have hhigh : d * c < 2 * (n % d * c) ↔ d < 2 * (n % d) := by
    rw [← Nat.mul_assoc, Nat.mul_lt_mul_right hc]
  simp only [divNearest, Nat.mul_div_mul_right _ _ hc, Nat.mul_mod_mul_right, hlow, hhigh]

private theorem divNearest_mul_self (m : Nat) {d : Nat} (hd : 0 < d) :
    divNearest (m * d) d = m := by
  simp only [divNearest, Nat.mul_div_cancel _ hd, Nat.mul_mod_left, Nat.mul_zero, hd, if_true]

private theorem div_le_divNearest (n d : Nat) : n / d ≤ divNearest n d := by
  unfold divNearest
  simp only
  split
  · exact Nat.le_refl _
  · split
    · exact Nat.le_succ _
    · exact Nat.le_add_right _ _

private theorem divNearest_le_succ (n d : Nat) : divNearest n d ≤ n / d + 1 := by
  unfold divNearest
  simp only
  split
  · exact Nat.le_succ _
  · split
    · exact Nat.le_refl _
    · have hmod : n / d % 2 < 2 := Nat.mod_lt _ (by decide)
      omega

theorem zpow_mul_pow_toNat (e : Int) : (2 : ℚ) ^ e * 2 ^ (-e).toNat = 2 ^ e.toNat := by
  rw [← zpow_natCast, ← zpow_natCast, ← zpow_add₀ (by norm_num)]
  congr 1
  omega

theorem shift_le_shift_iff (n d : Nat) (e : Int) :
    d <<< e.toNat ≤ n <<< (-e).toNat ↔ (2 : ℚ) ^ e * d ≤ n := by
  have hpos : (0 : ℚ) < 2 ^ (-e).toNat := by positivity
  rw [Nat.shiftLeft_eq, Nat.shiftLeft_eq, ← mul_le_mul_iff_left₀ hpos, mul_right_comm,
    zpow_mul_pow_toNat, mul_comm _ (d : ℚ)]
  exact_mod_cast Iff.rfl

theorem zpow_le_ratio_iff {n d : Nat} (hn : 0 < n) (hd : 0 < d) (e : Int) :
    e ≤ Int.log 2 ((n : ℚ) / d) ↔ (2 : ℚ) ^ e * d ≤ n := by
  have hratio : (0 : ℚ) < n / d := by positivity
  have hd' : (0 : ℚ) < d := by positivity
  rw [← Int.zpow_le_iff_le_log (by decide) hratio, ← le_div_iff₀ hd']
  rfl

theorem ratioLog2_eq {n d : Nat} (hn : 0 < n) (hd : 0 < d) :
    ratioLog2 n d = Int.log 2 ((n : ℚ) / d) := by
  have hlow : (n.log2 : Int) - d.log2 - 1 ≤ Int.log 2 ((n : ℚ) / d) := by
    rw [zpow_le_ratio_iff hn hd]
    have hd' : (d : ℚ) ≤ 2 ^ (d.log2 + 1) := by exact_mod_cast Nat.le_of_lt Nat.lt_log2_self
    have hn' : (2 : ℚ) ^ n.log2 ≤ n := by exact_mod_cast Nat.log2_self_le (Nat.ne_of_gt hn)
    calc (2 : ℚ) ^ ((n.log2 : Int) - d.log2 - 1) * d
        ≤ (2 : ℚ) ^ ((n.log2 : Int) - d.log2 - 1) * 2 ^ (d.log2 + 1) := by gcongr
      _ = 2 ^ n.log2 := by
          rw [← zpow_natCast, ← zpow_natCast, ← zpow_add₀ (by norm_num)]
          congr 1
          push_cast
          ring
      _ ≤ n := hn'
  have hhigh : Int.log 2 ((n : ℚ) / d) < (n.log2 : Int) - d.log2 + 1 := by
    rw [← not_le, zpow_le_ratio_iff hn hd, not_le]
    have hd' : (2 : ℚ) ^ d.log2 ≤ d := by exact_mod_cast Nat.log2_self_le (Nat.ne_of_gt hd)
    have hn' : (n : ℚ) < 2 ^ (n.log2 + 1) := by exact_mod_cast Nat.lt_log2_self
    calc (n : ℚ) < 2 ^ (n.log2 + 1) := hn'
      _ = (2 : ℚ) ^ ((n.log2 : Int) - d.log2 + 1) * 2 ^ d.log2 := by
          rw [← zpow_natCast, ← zpow_natCast, ← zpow_add₀ (by norm_num)]
          congr 1
          push_cast
          ring
      _ ≤ (2 : ℚ) ^ ((n.log2 : Int) - d.log2 + 1) * d := by gcongr
  unfold ratioLog2
  simp only [shift_le_shift_iff, ← zpow_le_ratio_iff hn hd]
  split <;> omega

private theorem nearestRatio_congr {n n' d d' : Nat} (hn : 0 < n) (hn' : 0 < n') (hd : 0 < d)
    (hd' : 0 < d') (h : n * d' = n' * d) : nearestRatio n d = nearestRatio n' d' := by
  have hratio : (n : ℚ) / d = n' / d' := by
    rw [div_eq_div_iff (by positivity) (by positivity)]
    exact_mod_cast h
  have hlog : ratioLog2 n d = ratioLog2 n' d' := by
    rw [ratioLog2_eq hn hd, ratioLog2_eq hn' hd', hratio]
  have hround (j k : Nat) :
      divNearest (n <<< j) (d <<< k) = divNearest (n' <<< j) (d' <<< k) := by
    rw [← divNearest_mul_right _ _ hd', ← divNearest_mul_right (n' <<< j) _ hd]
    simp only [Nat.shiftLeft_eq]
    congr 1
    · rw [Nat.mul_right_comm, h, Nat.mul_right_comm]
    · ring
  simp only [nearestRatio, hlog, hround]

theorem ofRatio_congr (negative : Bool) {n n' d d' : Nat} (hd : 0 < d) (hd' : 0 < d')
    (h : n * d' = n' * d) : ofRatio negative n d = ofRatio negative n' d' := by
  rcases Nat.eq_zero_or_pos n with rfl | hn
  · have hn' : n' = 0 := by
      rw [Nat.zero_mul] at h
      exact (Nat.mul_eq_zero.mp h.symm).resolve_right (Nat.ne_of_gt hd)
    rw [hn']
    rfl
  · have hn' : 0 < n' := by
      have hpos : 0 < n' * d := h ▸ Nat.mul_pos hn hd'
      exact Nat.pos_of_mul_pos_right hpos
    rw [ofRatio, ofRatio, if_neg (Nat.ne_of_gt hn), if_neg (Nat.ne_of_gt hn'),
      nearestRatio_congr hn hn' hd hd' h]

/-- Where the quotient at the exponent `e` has its leading bit. -/
theorem two_pow_le_quotient_iff {n d : Nat} (hn : 0 < n) (hd : 0 < d) (j : Nat) (e : Int) :
    2 ^ j ≤ n <<< (-e).toNat / d <<< e.toNat ↔ e + j ≤ ratioLog2 n d := by
  have hd' : 0 < d <<< e.toNat := by
    rw [Nat.shiftLeft_eq]
    positivity
  have hshift : 2 ^ j * d <<< e.toNat = (2 ^ j * d) <<< e.toNat := by
    rw [Nat.shiftLeft_eq, Nat.shiftLeft_eq, Nat.mul_assoc]
  have hpow : (2 : ℚ) ^ e * ((2 ^ j * d : Nat) : ℚ) = 2 ^ (e + j) * d := by
    push_cast
    rw [zpow_add₀ (by norm_num), zpow_natCast, mul_assoc]
  rw [Nat.le_div_iff_mul_le hd', hshift, shift_le_shift_iff, hpow, ← zpow_le_ratio_iff hn hd,
    ratioLog2_eq hn hd]

private theorem nearestRatio_stored {n d : Nat} (hn : 0 < n) (hd : 0 < d) :
    -1074 ≤ (nearestRatio n d).2 ∧ (nearestRatio n d).1 < 2 ^ 53 ∧
      (2 ^ 52 ≤ (nearestRatio n d).1 ∨ (nearestRatio n d).2 = -1074) := by
  obtain ⟨e, he⟩ : ∃ e, max (ratioLog2 n d - 52) (-1074) = e := ⟨_, rfl⟩
  have hmin : -1074 ≤ e := by omega
  have hlow := two_pow_le_quotient_iff hn hd 52 e
  have hhigh := two_pow_le_quotient_iff hn hd 53 e
  have hle := div_le_divNearest (n <<< (-e).toNat) (d <<< e.toNat)
  have hsucc := divNearest_le_succ (n <<< (-e).toNat) (d <<< e.toNat)
  -- The quotient has at most 53 bits, so that rounding it up can give a 54th only as `2 ^ 53`.
  simp only [nearestRatio, he]
  split
  · have hpow : 1 <<< 52 < 2 ^ 53 ∧ 2 ^ 52 ≤ 1 <<< 52 := by decide
    exact ⟨by omega, hpow.1, .inl hpow.2⟩
  · rename_i hm
    have hm' : divNearest (n <<< (-e).toNat) (d <<< e.toNat) ≠ 2 ^ 53 := hm
    refine ⟨hmin, by omega, ?_⟩
    by_cases hbottom : e = -1074
    · exact .inr hbottom
    · exact .inl (by omega)

theorem stored_zero (negative : Bool) : (zero negative).Stored :=
  ⟨by decide, by decide, by decide, .inr rfl⟩

theorem stored_ofRatio (negative : Bool) (n : Nat) {d : Nat} (hd : 0 < d) :
    (ofRatio negative n d).Stored := by
  unfold ofRatio
  split
  · exact stored_zero negative
  · rename_i hn
    have hform := nearestRatio_stored (Nat.pos_of_ne_zero hn) hd
    simp only
    split
    · trivial
    · rename_i he
      exact ⟨hform.1, by omega, hform.2⟩

theorem ofRatio_exact {negative : Bool} {m : Nat} {e : Int} (hx : (finite negative m e).Stored)
    (hm : m ≠ 0) {n d : Nat} (hd : 0 < d) (h : n <<< (-e).toNat = m * d <<< e.toNat) :
    ofRatio negative n d = .finite negative m e := by
  obtain ⟨hmin, hmax, hm53, hform⟩ := hx
  have hd' : 0 < d <<< e.toNat := by
    rw [Nat.shiftLeft_eq]
    positivity
  have hn : n ≠ 0 := by
    rintro rfl
    rw [Nat.zero_shiftLeft] at h
    exact hm ((Nat.mul_eq_zero.mp h.symm).resolve_right (Nat.ne_of_gt hd'))
  have hquotient : n <<< (-e).toNat / d <<< e.toNat = m := by
    rw [h, Nat.mul_div_cancel _ hd']
  have hlow := two_pow_le_quotient_iff (Nat.pos_of_ne_zero hn) hd 52 e
  have hhigh := two_pow_le_quotient_iff (Nat.pos_of_ne_zero hn) hd 53 e
  rw [hquotient] at hlow hhigh
  -- The exponent that is chosen is that of the double, because its significand has a leading bit.
  have he : max (ratioLog2 n d - 52) (-1074) = e := by
    rcases hform with hform | rfl <;> omega
  have hround : divNearest (n <<< (-e).toNat) (d <<< e.toNat) = m := by
    rw [h, divNearest_mul_self m hd']
  have hm' : ¬ m = 1 <<< 53 := Nat.ne_of_lt hm53
  simp only [ofRatio, hn, nearestRatio, he, hround, hm', if_false, Int.not_lt.mpr hmax]

private theorem stored_ofDyadic (negative : Bool) (m : Nat) (e : Int) :
    (ofDyadic negative m e).Stored := by
  apply stored_ofRatio
  rw [Nat.shiftLeft_eq]
  positivity

theorem stored_mul (x y : Binary64) : (x.mul y).Stored := by
  unfold mul
  split
  · exact stored_ofDyadic _ _ _
  · split <;> trivial
  · split <;> trivial
  · trivial
  · trivial

end ConversionCoverage.Binary64
