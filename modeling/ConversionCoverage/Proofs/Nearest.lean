import ConversionCoverage.Proofs.Rounding
import Mathlib.Algebra.Order.Ring.Abs
import Mathlib.Tactic.Linarith

/-!
# The nearest double

A number that is not negative is rounded to a double that no other double is nearer to. From this
it follows that rounding keeps the order of numbers. How far it moves a number is bounded by half
a unit in the last place of the double.
-/

namespace ConversionCoverage.Binary64

/-- The exact value of a finite number. -/
def value? : Binary64 → Option ℚ
  | .finite negative m e => some (if negative then -(m * 2 ^ e) else m * 2 ^ e)
  | _ => none

theorem value?_zero (negative : Bool) : (zero negative).value? = some 0 := by
  simp [zero, value?]

theorem shift_div_shift (m : Nat) (e : Int) :
    ((m <<< e.toNat : Nat) : ℚ) / (1 <<< (-e).toNat : Nat) = m * 2 ^ e := by
  have hpos : (0 : ℚ) < 2 ^ (-e).toNat := by positivity
  rw [Nat.shiftLeft_eq, Nat.shiftLeft_eq, Nat.one_mul]
  push_cast
  rw [div_eq_iff (ne_of_gt hpos), mul_assoc, zpow_mul_pow_toNat]

private theorem div_eq_intCast_iff {a b : Nat} (hb : 0 < b) {n : Int} :
    (a : ℚ) / b = n ↔ a % b = 0 ∧ ((a / b : Nat) : Int) = n := by
  have hb' : (b : ℚ) ≠ 0 := by exact_mod_cast hb.ne'
  have hcast : (a : ℚ) / b = n ↔ (a : Int) = n * b := by
    rw [div_eq_iff hb']
    norm_cast
  rw [hcast]
  constructor
  · intro h
    have hdvd : b ∣ a := Int.natCast_dvd_natCast.mp (Dvd.intro_left n h.symm)
    refine ⟨Nat.mod_eq_zero_of_dvd hdvd, ?_⟩
    rw [Int.natCast_div, h, Int.mul_ediv_cancel n (by omega)]
  · rintro ⟨hmod, rfl⟩
    exact_mod_cast (Nat.div_mul_cancel (Nat.dvd_of_mod_eq_zero hmod)).symm

theorem toInt?_eq_some_iff {x : Binary64} {n : Int} :
    x.toInt? = some n ↔ x.value? = some (n : ℚ) := by
  cases x with
  | nan => simp [toInt?, value?]
  | infinite negative => simp [toInt?, value?]
  | finite negative m e =>
    have hwhole (k : Int) := div_eq_intCast_iff (a := m <<< e.toNat) (n := k)
      (Nat.two_pow_pos (-e).toNat)
    rw [← Nat.one_shiftLeft, shift_div_shift] at hwhole
    rw [toInt?, truncate?, value?, Nat.shiftRight_eq_div_pow, ← Nat.one_shiftLeft]
    cases negative with
    | false => simp [hwhole]
    | true =>
      have hnegated := hwhole (-n)
      rw [Int.cast_neg, ← neg_eq_iff_eq_neg, ← neg_eq_iff_eq_neg] at hnegated
      simp [hnegated]

/-! ## The nearest integer -/

private theorem divNearest_bounds (n : Nat) {d : Nat} (hd : 0 < d) :
    2 * (divNearest n d * d) ≤ 2 * n + d ∧ 2 * n ≤ 2 * (divNearest n d * d) + d := by
  have hdiv : n / d * d + n % d = n := Nat.div_add_mod' n d
  have hsucc : (n / d + 1) * d = n / d * d + d := Nat.succ_mul (n / d) d
  have hmod : n % d < d := Nat.mod_lt n hd
  unfold divNearest
  simp only
  split
  · omega
  · split
    · omega
    · rcases Nat.mod_two_eq_zero_or_one (n / d) with heven | hodd
      · rw [heven, Nat.add_zero]
        omega
      · rw [hodd]
        omega

theorem abs_divNearest_sub_le (n : Nat) {d : Nat} (hd : 0 < d) :
    |(divNearest n d : ℚ) - n / d| ≤ 1 / 2 := by
  have hd' : (0 : ℚ) < d := by exact_mod_cast hd
  obtain ⟨hlow, hhigh⟩ := divNearest_bounds n hd
  have hlow' : 2 * ((divNearest n d : ℚ) * d) ≤ 2 * n + d := by exact_mod_cast hlow
  have hhigh' : 2 * (n : ℚ) ≤ 2 * (divNearest n d * d) + d := by exact_mod_cast hhigh
  have hcancel : (n : ℚ) / d * d = n := div_mul_cancel₀ _ (ne_of_gt hd')
  rw [abs_le]
  constructor
  · rw [← mul_le_mul_iff_left₀ hd']
    linarith
  · rw [← mul_le_mul_iff_left₀ hd']
    linarith

theorem abs_divNearest_sub_le_int (n : Nat) {d : Nat} (hd : 0 < d) (k : Int) :
    |(divNearest n d : ℚ) - n / d| ≤ |(k : ℚ) - n / d| := by
  have hhalf := abs_divNearest_sub_le n hd
  by_cases hk : k = divNearest n d
  · rw [hk, Int.cast_natCast]
  · have hapart : (1 : ℚ) ≤ |(k : ℚ) - divNearest n d| := by
      have hint : 1 ≤ |k - divNearest n d| := Int.one_le_abs (sub_ne_zero.mpr hk)
      exact_mod_cast hint
    have htriangle := abs_sub_le (k : ℚ) (n / d) (divNearest n d)
    rw [abs_sub_comm ((n : ℚ) / d)] at htriangle
    linarith

/-! ## The place of the last digit -/

/-- The exponent of the last binary digit that is kept of a quotient. -/
def lastPlace (n d : Nat) : Int := max (ratioLog2 n d - 52) (-1074)

theorem scaled_ratio (n d : Nat) (e : Int) :
    ((n <<< (-e).toNat : Nat) : ℚ) / (d <<< e.toNat : Nat) = n / d / 2 ^ e := by
  have hscale : (2 : ℚ) ^ (-e).toNat / 2 ^ e.toNat = (2 ^ e)⁻¹ := by
    have hpow := zpow_mul_pow_toNat (-e)
    rw [neg_neg, zpow_neg] at hpow
    rw [div_eq_iff (by positivity), hpow]
  rw [Nat.shiftLeft_eq, Nat.shiftLeft_eq]
  push_cast
  rw [mul_div_mul_comm, hscale, ← div_eq_mul_inv]

private theorem nearestRatio_value (n d : Nat) :
    ((nearestRatio n d).1 : ℚ) * 2 ^ (nearestRatio n d).2 =
      divNearest (n <<< (-lastPlace n d).toNat) (d <<< (lastPlace n d).toNat) *
        2 ^ lastPlace n d := by
  simp only [nearestRatio, lastPlace]
  split
  · rename_i hcarry
    rw [hcarry, zpow_add₀ (by norm_num), Nat.shiftLeft_eq, Nat.shiftLeft_eq]
    push_cast
    ring
  · rfl

/-- A rounded number is a multiple of its last place, the one with the nearest factor. -/
theorem value_ofRatio {n d : Nat} {v : ℚ} (hn : n ≠ 0)
    (hv : (ofRatio false n d).value? = some v) :
    v = divNearest (n <<< (-lastPlace n d).toNat) (d <<< (lastPlace n d).toNat) *
      2 ^ lastPlace n d := by
  rw [ofRatio, if_neg hn] at hv
  simp only at hv
  split at hv
  · cases hv
  · rw [← nearestRatio_value]
    exact (Option.some.inj hv).symm

/-- Half a unit in the last place bounds how far a number is moved. -/
theorem abs_value_ofRatio_sub_le {n d : Nat} {v : ℚ} (hn : n ≠ 0) (hd : 0 < d)
    (hv : (ofRatio false n d).value? = some v) (q : Int) :
    |v - n / d| ≤ 2 ^ lastPlace n d / 2 ∧ |v - n / d| ≤ |(q : ℚ) * 2 ^ lastPlace n d - n / d| := by
  obtain ⟨e, he⟩ : ∃ e, lastPlace n d = e := ⟨_, rfl⟩
  have hunit : (0 : ℚ) < 2 ^ e := by positivity
  have hd' : 0 < d <<< e.toNat := by
    rw [Nat.shiftLeft_eq]
    positivity
  have hscaled (x : ℚ) : |x * 2 ^ e - n / d| = |x - n / d / 2 ^ e| * 2 ^ e := by
    rw [← abs_of_pos hunit, ← abs_mul, sub_mul, abs_of_pos hunit,
      div_mul_cancel₀ _ (ne_of_gt hunit)]
  have hhalf := abs_divNearest_sub_le (n <<< (-e).toNat) hd'
  have hnearest := abs_divNearest_sub_le_int (n <<< (-e).toNat) hd' q
  rw [scaled_ratio] at hhalf hnearest
  rw [value_ofRatio hn hv, he, hscaled, hscaled]
  constructor
  · calc _ ≤ 1 / 2 * (2 : ℚ) ^ e := mul_le_mul_of_nonneg_right hhalf (le_of_lt hunit)
      _ = 2 ^ e / 2 := by ring
  · exact mul_le_mul_of_nonneg_right hnearest (le_of_lt hunit)

theorem first_place_le {n d : Nat} (hn : 0 < n) (hd : 0 < d) (h : -1074 < lastPlace n d) :
    (2 : ℚ) ^ (lastPlace n d + 52) ≤ n / d := by
  have hplace : lastPlace n d + 52 = ratioLog2 n d := by
    unfold lastPlace at h ⊢
    omega
  rw [le_div_iff₀ (by positivity), hplace, ← zpow_le_ratio_iff hn hd, ratioLog2_eq hn hd]

theorem pow_mul_zpow (e : Int) : ((2 ^ 52 : Int) : ℚ) * 2 ^ e = 2 ^ (e + 52) := by
  rw [zpow_add₀ (by norm_num), mul_comm]
  norm_cast

theorem exists_multiple (k : Nat) {e f : Int} (h : e ≤ f) :
    ∃ j : Int, (k * 2 ^ f : ℚ) = j * 2 ^ e := by
  obtain ⟨i, rfl⟩ : ∃ i : Nat, f = e + i := ⟨(f - e).toNat, by omega⟩
  refine ⟨k * 2 ^ i, ?_⟩
  rw [zpow_add₀ (by norm_num), zpow_natCast]
  push_cast
  ring

/-- What has 53 digits and ends below some place lies below all numbers of 53 digits that end
there. -/
theorem le_of_lower_place {k : Nat} (hk : k < 2 ^ 53) {e f : Int} (h : f < e) :
    (k * 2 ^ f : ℚ) ≤ (2 ^ 52 : Int) * 2 ^ e := by
  have hk' : (k : ℚ) ≤ 2 ^ 53 := by exact_mod_cast Nat.le_of_lt hk
  calc (k * 2 ^ f : ℚ) ≤ 2 ^ 53 * 2 ^ f := by gcongr
    _ = 2 ^ (53 + f) := by rw [zpow_add₀ (by norm_num), zpow_ofNat]
    _ ≤ 2 ^ (e + 52) := zpow_le_zpow_right₀ (by norm_num) (by omega)
    _ = (2 ^ 52 : Int) * 2 ^ e := (pow_mul_zpow e).symm

/-! ## Rounding numbers that are not negative -/

/-- The double is what a number is rounded to. -/
def Rounds (q : ℚ) (x : Binary64) : Prop :=
  ∃ n d : Nat, 0 < d ∧ q = n / d ∧ x = ofRatio false n d

private theorem abs_sub_le_of_between {w u q : ℚ} (hwu : w ≤ u) (huq : u ≤ q) :
    |u - q| ≤ |w - q| := by
  rw [abs_sub_comm u, abs_sub_comm w, abs_of_nonneg (sub_nonneg.mpr huq),
    abs_of_nonneg (sub_nonneg.mpr (hwu.trans huq))]
  exact sub_le_sub_left hwu q

namespace Rounds

variable {q r v w : ℚ} {x y : Binary64}

theorem stored (h : Rounds q x) : x.Stored := by
  obtain ⟨n, d, hd, -, rfl⟩ := h
  exact stored_ofRatio false n hd

theorem unique (hx : Rounds q x) (hy : Rounds q y) : x = y := by
  obtain ⟨n, d, hd, rfl, rfl⟩ := hx
  obtain ⟨n', d', hd', heq, rfl⟩ := hy
  apply ofRatio_congr false hd hd'
  rw [div_eq_div_iff (by positivity) (by positivity)] at heq
  exact_mod_cast heq

/-- No double is nearer to a number than the one that it is rounded to. -/
theorem nearest (hx : Rounds q x) (hv : x.value? = some v) (hy : y.Stored)
    (hw : y.value? = some w) : |v - q| ≤ |w - q| := by
  obtain ⟨n, d, hd, rfl, rfl⟩ := hx
  rcases Nat.eq_zero_or_pos n with rfl | hn
  · rw [ofRatio, if_pos rfl, value?_zero] at hv
    obtain rfl : 0 = v := Option.some.inj hv
    simp
  obtain ⟨e, he⟩ : ∃ e, lastPlace n d = e := ⟨_, rfl⟩
  -- A multiple of the last place is no nearer, and nor is what lies below such a multiple.
  have hmultiple (k : Int) : |v - n / d| ≤ |(k : ℚ) * 2 ^ e - n / d| :=
    he ▸ (abs_value_ofRatio_sub_le (Nat.ne_of_gt hn) hd hv k).2
  have hbelow (k : Int) (hwk : w ≤ k * 2 ^ e) (hk : (k : ℚ) * 2 ^ e ≤ n / d) :
      |v - n / d| ≤ |w - n / d| := (hmultiple k).trans (abs_sub_le_of_between hwk hk)
  cases y with
  | nan => cases hw
  | infinite negative => cases hw
  | finite negative k f =>
    obtain ⟨hmin, -, hk, -⟩ := hy
    have hsize : (0 : ℚ) ≤ k * 2 ^ f := by positivity
    cases negative with
    | true =>
      obtain rfl : -(k * 2 ^ f : ℚ) = w := Option.some.inj hw
      apply hbelow 0
      · simpa using hsize
      · simp only [Int.cast_zero, zero_mul]
        positivity
    | false =>
      obtain rfl : (k * 2 ^ f : ℚ) = w := Option.some.inj hw
      rcases le_or_gt e f with hle | hlt
      · obtain ⟨j, hj⟩ := exists_multiple k hle
        rw [hj]
        exact hmultiple j
      · apply hbelow (2 ^ 52) (le_of_lower_place hk hlt)
        rw [pow_mul_zpow, ← he]
        exact first_place_le hn hd (by omega)

theorem mono (hx : Rounds q x) (hy : Rounds r y) (hqr : q ≤ r) (hv : x.value? = some v)
    (hw : y.value? = some w) : v ≤ w := by
  by_contra hlt
  rw [not_le] at hlt
  -- If the order were turned round, both numbers would lie on the middle of the two doubles.
  have hq := sq_le_sq.mpr (hx.nearest hv hy.stored hw)
  have hr := sq_le_sq.mpr (hy.nearest hw hx.stored hv)
  have hfirst : (v - w) * (v + w - 2 * q) ≤ 0 := by linarith
  have hsecond : 0 ≤ (v - w) * (v + w - 2 * r) := by linarith
  have hgap : 0 < v - w := by linarith
  have hlow : v + w - 2 * q ≤ 0 := nonpos_of_mul_nonpos_right hfirst hgap
  have hhigh : 0 ≤ v + w - 2 * r := nonneg_of_mul_nonneg_right hsecond hgap
  obtain rfl : q = r := by linarith
  obtain rfl := hx.unique hy
  rw [hv] at hw
  exact absurd (Option.some.inj hw) (ne_of_gt hlt)

/-- Rounding moves a number below `2 ^ (k + 1)` by at most `2 ^ (k - 53)`. -/
theorem exists_value (hx : Rounds q x) (k : Int) (hmin : -1022 ≤ k) (hmax : k ≤ 1022)
    (hq : q < 2 ^ (k + 1)) : ∃ v, x.value? = some v ∧ |v - q| ≤ 2 ^ (k - 53) := by
  obtain ⟨n, d, hd, rfl, rfl⟩ := hx
  rcases Nat.eq_zero_or_pos n with rfl | hn
  · refine ⟨0, ?_, ?_⟩
    · rw [ofRatio, if_pos rfl, value?_zero]
    · simp only [Nat.cast_zero, zero_div, sub_zero, abs_zero]
      positivity
  have hlog : ratioLog2 n d ≤ k := by
    rw [ratioLog2_eq hn hd, ← Int.lt_add_one_iff, ← Int.lt_zpow_iff_log_lt (by decide)]
    · exact_mod_cast hq
    · positivity
  have hplace : lastPlace n d ≤ k - 52 := by
    unfold lastPlace
    omega
  have hvalue : ∃ v, (ofRatio false n d).value? = some v := by
    have hexponent : ¬ 971 < (nearestRatio n d).2 := by
      simp only [nearestRatio]
      split <;> (unfold lastPlace at hplace; omega)
    exact ⟨_, by simp only [ofRatio, Nat.ne_of_gt hn, hexponent, if_false]; rfl⟩
  obtain ⟨v, hv⟩ := hvalue
  refine ⟨v, hv, (abs_value_ofRatio_sub_le (Nat.ne_of_gt hn) hd hv 0).1.trans ?_⟩
  calc (2 : ℚ) ^ lastPlace n d / 2 ≤ 2 ^ (k - 52) / 2 := by
        gcongr
        norm_num
    _ = 2 ^ (k - 53) := by
        rw [show k - 53 = k - 52 - 1 by ring, zpow_sub_one₀ (by norm_num), div_eq_mul_inv]

theorem exists_finite (hx : Rounds q x) (hv : x.value? = some v) :
    ∃ m e, x = .finite false m e ∧ v = m * 2 ^ e := by
  obtain ⟨n, d, -, -, rfl⟩ := hx
  unfold ofRatio zero at hv ⊢
  simp only at hv ⊢
  split
  · rename_i hn
    rw [if_pos hn] at hv
    exact ⟨0, -1074, rfl, (Option.some.inj hv).symm⟩
  · rename_i hn
    rw [if_neg hn] at hv
    split at hv
    · cases hv
    · rename_i he
      exact ⟨_, _, if_neg he, (Option.some.inj hv).symm⟩

theorem mul (hx : Rounds q x) (hy : Rounds r y) (hv : x.value? = some v)
    (hw : y.value? = some w) : Rounds (v * w) (x.mul y) := by
  obtain ⟨m, e, rfl, rfl⟩ := hx.exists_finite hv
  obtain ⟨n, f, rfl, rfl⟩ := hy.exists_finite hw
  refine ⟨(m * n) <<< (e + f).toNat, 1 <<< (-(e + f)).toNat, ?_, ?_, rfl⟩
  · rw [Nat.shiftLeft_eq]
    positivity
  · rw [shift_div_shift, zpow_add₀ (by norm_num)]
    push_cast
    ring

theorem zero : Rounds 0 (zero false) := ⟨0, 1, Nat.one_pos, by simp, rfl⟩

theorem nonneg (hx : Rounds q x) (hq : 0 ≤ q) (hv : x.value? = some v) : 0 ≤ v :=
  zero.mono hx hq (value?_zero false) hv

end Rounds

end ConversionCoverage.Binary64
