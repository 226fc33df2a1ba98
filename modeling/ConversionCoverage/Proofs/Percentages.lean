import ConversionCoverage.Percentage
import ConversionCoverage.Proofs.Nearest

/-!
# Percentages

The percentage of a count that is part of a total is always a number. It is rounded twice, first as
a quotient and then as a product, and both times the order of numbers is kept.
-/

namespace ConversionCoverage

namespace Binary64

private theorem rounds_one : Rounds 1 (ofRatio false 1 1) := ⟨1, 1, Nat.one_pos, by norm_num, rfl⟩

private theorem value?_one : (ofRatio false 1 1).value? = some 1 := by
  have hone : ofRatio false 1 1 = .finite false (2 ^ 52) (-52) := by decide
  rw [hone, value?]
  norm_num

theorem rounds_hundred : Rounds 100 (ofInt 100) := ⟨100, 1, Nat.one_pos, by norm_num, rfl⟩

theorem value?_hundred : (ofInt 100).value? = some 100 := by
  have hhundred : ofInt 100 = .finite false (100 * 2 ^ 46) (-46) := by decide
  rw [hhundred, value?]
  norm_num

end Binary64

namespace Percentage

open Binary64

/-- A count of some of the things that are there. -/
structure IsPart (count total : Int) : Prop where
  nonneg : 0 ≤ count
  le : count ≤ total
  pos : 0 < total

namespace IsPart

variable {count total : Int} {v : ℚ} (h : IsPart count total)
include h

theorem cast_pos : (0 : ℚ) < total := by exact_mod_cast h.pos

private theorem ratio_nonneg : (0 : ℚ) ≤ count / total :=
  div_nonneg (by exact_mod_cast h.nonneg) (le_of_lt h.cast_pos)

theorem ratio_le_one : (count : ℚ) / total ≤ 1 := by
  rw [div_le_one h.cast_pos]
  exact_mod_cast h.le

theorem rounds_quotient : Rounds (count / total) (quotient count total) := by
  have hcount : decide (count < 0) = false := decide_eq_false (Int.not_lt.mpr h.nonneg)
  have htotal : decide (total < 0) = false := decide_eq_false (Int.not_lt.mpr (Int.le_of_lt h.pos))
  refine ⟨count.natAbs, total.natAbs, Int.natAbs_pos.mpr (Int.ne_of_gt h.pos), ?_, ?_⟩
  · rw [Nat.cast_natAbs, Nat.cast_natAbs, abs_of_nonneg h.nonneg, abs_of_pos h.pos]
  · rw [quotient, hcount, htotal]
    rfl

theorem exists_quotient : ∃ v, (quotient count total).value? = some v ∧ 0 ≤ v ∧ v ≤ 1 ∧
    |v - count / total| ≤ 2 ^ (-53 : Int) := by
  have hsmall : (count : ℚ) / total < 2 ^ (0 + 1 : Int) := by
    have hle := h.ratio_le_one
    norm_num
    linarith
  obtain ⟨v, hv, herror⟩ := h.rounds_quotient.exists_value 0 (by decide) (by decide) hsmall
  exact ⟨v, hv, h.rounds_quotient.nonneg h.ratio_nonneg hv,
    h.rounds_quotient.mono rounds_one h.ratio_le_one hv value?_one, by simpa using herror⟩

/-- The percentage is the quotient times a hundred, rounded once more. -/
theorem rounds_rate (hv : (quotient count total).value? = some v) :
    Rounds (v * 100) (rate count total) := by
  rw [rate, if_neg (Int.ne_of_gt h.pos)]
  exact h.rounds_quotient.mul rounds_hundred hv value?_hundred

theorem rate?_eq : rate? count total = .ok (rate count total) := by
  obtain ⟨v, hv, -⟩ := h.exists_quotient
  obtain ⟨m, e, hquotient, -⟩ := h.rounds_quotient.exists_finite hv
  have hfinite : ¬ (total ≠ 0 ∧ isInfinite (quotient count total)) := by
    rintro ⟨-, hinfinite⟩
    rw [hquotient] at hinfinite
    cases hinfinite
  rw [rate?, if_neg hfinite]

theorem exists_rate : ∃ v, (rate count total).value? = some v ∧ 0 ≤ v ∧ v ≤ 100 ∧
    |v - 100 * count / total| ≤ 2 ^ (-45 : Int) := by
  obtain ⟨u, hu, hnonneg, hle, hquotient⟩ := h.exists_quotient
  have hrounds := h.rounds_rate hu
  have hlarge : u * 100 ≤ 100 := by linarith
  have hsmall : u * 100 < 2 ^ (6 + 1 : Int) := by
    norm_num
    linarith
  obtain ⟨v, hv, hproduct⟩ := hrounds.exists_value 6 (by decide) (by decide) hsmall
  refine ⟨v, hv, hrounds.nonneg (by linarith) hv, hrounds.mono rounds_hundred hlarge hv
    value?_hundred, ?_⟩
  have hscaled : |u * 100 - 100 * count / total| = |u - count / total| * 100 := by
    have hfactor : u * 100 - 100 * count / total = (u - count / total) * 100 := by ring
    rw [hfactor, abs_mul, abs_of_pos (show (0 : ℚ) < 100 by norm_num)]
  calc |v - 100 * count / total| ≤ |v - u * 100| + |u * 100 - 100 * count / total| :=
        abs_sub_le _ _ _
    _ ≤ 2 ^ (6 - 53 : Int) + 2 ^ (-53 : Int) * 100 := by
        rw [hscaled]
        gcongr
    _ ≤ 2 ^ (-45 : Int) := by norm_num

end IsPart

theorem rate_eq_of_ratio_eq {c₁ t₁ c₂ t₂ : Int} (h₁ : IsPart c₁ t₁) (h₂ : IsPart c₂ t₂)
    (h : c₁ * t₂ = c₂ * t₁) : rate c₁ t₁ = rate c₂ t₂ := by
  have hratio : (c₁ : ℚ) / t₁ = c₂ / t₂ := by
    rw [div_eq_div_iff (ne_of_gt h₁.cast_pos) (ne_of_gt h₂.cast_pos)]
    exact_mod_cast h
  have hquotient : quotient c₁ t₁ = quotient c₂ t₂ :=
    h₁.rounds_quotient.unique (hratio ▸ h₂.rounds_quotient)
  rw [rate, rate, if_neg (Int.ne_of_gt h₁.pos), if_neg (Int.ne_of_gt h₂.pos), hquotient]

private theorem isPart_one : IsPart 1 1 := ⟨by decide, by decide, by decide⟩

theorem rate_self {total : Int} (h : 0 < total) : rate total total = .ofInt 100 := by
  rw [rate_eq_of_ratio_eq ⟨Int.le_of_lt h, Int.le_refl _, h⟩ isPart_one (by ring)]
  decide

/-- The percentages of parts are in the order of the exact ratios and lie between 0 and 100. Equal
ratios have one percentage, and all of a total is exactly 100. -/
theorem rate_monotone {c₁ t₁ c₂ t₂ : Int} (h₁ : IsPart c₁ t₁) (h₂ : IsPart c₂ t₂)
    (h : c₁ * t₂ ≤ c₂ * t₁) :
    ∃ x₁ x₂ v₁ v₂, rate? c₁ t₁ = .ok x₁ ∧ rate? c₂ t₂ = .ok x₂ ∧
      x₁.value? = some v₁ ∧ x₂.value? = some v₂ ∧ 0 ≤ v₁ ∧ v₁ ≤ v₂ ∧ v₂ ≤ 100 ∧
      (c₁ * t₂ = c₂ * t₁ → x₁ = x₂) ∧ (c₁ = t₁ → v₁ = 100) ∧ (c₂ = t₂ → v₂ = 100) := by
  obtain ⟨u₁, hu₁, -⟩ := h₁.exists_quotient
  obtain ⟨u₂, hu₂, -⟩ := h₂.exists_quotient
  obtain ⟨v₁, hv₁, hnonneg, -⟩ := h₁.exists_rate
  obtain ⟨v₂, hv₂, -, hle, -⟩ := h₂.exists_rate
  have hratio : (c₁ : ℚ) / t₁ ≤ c₂ / t₂ := by
    rw [div_le_div_iff₀ h₁.cast_pos h₂.cast_pos]
    exact_mod_cast h
  have hu : u₁ ≤ u₂ := h₁.rounds_quotient.mono h₂.rounds_quotient hratio hu₁ hu₂
  have hv : v₁ ≤ v₂ :=
    (h₁.rounds_rate hu₁).mono (h₂.rounds_rate hu₂) (by linarith) hv₁ hv₂
  refine ⟨_, _, v₁, v₂, h₁.rate?_eq, h₂.rate?_eq, hv₁, hv₂, hnonneg, hv, hle, ?_, ?_, ?_⟩
  · exact rate_eq_of_ratio_eq h₁ h₂
  · rintro rfl
    rw [rate_self h₁.pos, value?_hundred] at hv₁
    exact (Option.some.inj hv₁).symm
  · rintro rfl
    rw [rate_self h₂.pos, value?_hundred] at hv₂
    exact (Option.some.inj hv₂).symm

/-- A third, and a ratio above it that no double tells from a third. -/
theorem rate_monotone_close :
    IsPart 1 3 ∧ IsPart (10 ^ 200) (3 * 10 ^ 200 - 1) ∧
      1 * (3 * 10 ^ 200 - 1) ≤ (10 ^ 200 * 3 : Int) ∧
      ∃ x₁ x₂ v₁ v₂, rate? 1 3 = .ok x₁ ∧ rate? (10 ^ 200) (3 * 10 ^ 200 - 1) = .ok x₂ ∧
        x₁.value? = some v₁ ∧ x₂.value? = some v₂ ∧ 0 ≤ v₁ ∧ v₁ ≤ v₂ ∧ v₂ ≤ 100 := by
  have hthird : IsPart 1 3 := ⟨by decide, by decide, by decide⟩
  have habove : IsPart (10 ^ 200) (3 * 10 ^ 200 - 1) := ⟨by decide, by decide, by decide⟩
  have hratio : 1 * (3 * 10 ^ 200 - 1) ≤ (10 ^ 200 * 3 : Int) := by decide
  obtain ⟨x₁, x₂, v₁, v₂, hx₁, hx₂, hv₁, hv₂, hnonneg, hle, hmax, -⟩ :=
    rate_monotone hthird habove hratio
  exact ⟨hthird, habove, hratio, x₁, x₂, v₁, v₂, hx₁, hx₂, hv₁, hv₂, hnonneg, hle, hmax⟩

end Percentage

end ConversionCoverage
