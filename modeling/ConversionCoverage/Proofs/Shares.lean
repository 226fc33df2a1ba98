import ConversionCoverage.Proofs.Percentages
import ConversionCoverage.Proofs.Tally
import ConversionCoverage.Report.Summary

/-!
# Shares add up

The numbers behind the four shares of a tally make up its total, so that the percentages make up a
hundred but for rounding.
-/

namespace ConversionCoverage

/-- Exact values of the percentages that some shares of a total give. -/
structure Shares.Percentages (s : Shares) (total : Nat) (p : Severity → ℚ) : Prop where
  computed : ∀ severity,
    Percentage.rate? (s.share severity).number total = .ok (s.share severity).pct
  value : ∀ severity, (s.share severity).pct.value? = some (p severity)
  nonneg : ∀ severity, 0 ≤ p severity
  le : ∀ severity, p severity ≤ 100
  near : 0 < total →
    ∀ severity, |p severity - 100 * (s.share severity).number / total| ≤ 1 / 10 ^ 12
  sum : 0 < total → |p .success + p .warning + p .failure + p .fatal - 100| ≤ 1 / 10 ^ 12
  of_empty : total = 0 → ∀ severity, p severity = 0

namespace Share

variable {number total : Nat}

private theorem rate?_of (h : number ≤ total) :
    Percentage.rate? number total = .ok (of number total).pct := by
  rcases Nat.eq_zero_or_pos total with rfl | hpos
  · rfl
  · exact Percentage.IsPart.rate?_eq ⟨by omega, by omega, by omega⟩

theorem exists_rounds (h : number ≤ total) : ∃ q, Binary64.Rounds q (of number total).pct := by
  rcases Nat.eq_zero_or_pos total with rfl | hpos
  · exact ⟨0, Binary64.Rounds.zero⟩
  · have hpart : Percentage.IsPart number total := ⟨by omega, by omega, by omega⟩
    obtain ⟨v, hv, -⟩ := hpart.exists_quotient
    exact ⟨_, hpart.rounds_rate hv⟩

theorem exists_value (h : number ≤ total) : ∃ v, (of number total).pct.value? = some v ∧
    0 ≤ v ∧ v ≤ 100 ∧ (0 < total → |v - 100 * number / total| ≤ 2 ^ (-45 : Int)) ∧
    (total = 0 → v = 0) := by
  rcases Nat.eq_zero_or_pos total with rfl | hpos
  · exact ⟨0, Binary64.value?_zero false, le_refl 0, by norm_num, fun hpos => absurd hpos (by decide),
      fun _ => rfl⟩
  · have hpart : Percentage.IsPart number total := ⟨by omega, by omega, by omega⟩
    obtain ⟨v, hv, hnonneg, hle, hnear⟩ := hpart.exists_rate
    rw [Int.cast_natCast, Int.cast_natCast] at hnear
    exact ⟨v, hv, hnonneg, hle, fun _ => hnear, fun hzero => absurd hzero (Nat.ne_of_gt hpos)⟩

end Share

namespace Tally

theorem Balanced.number_le {t : Tally} (h : t.Balanced) (severity : Severity) :
    t.number severity ≤ t.total := by
  have htotal := h.total
  cases severity <;> simp only [number] <;> omega

theorem Balanced.sum_exact {t : Tally} (h : t.Balanced) (hpos : 0 < t.total) :
    (100 * t.number .success / t.total + 100 * t.number .warning / t.total +
      100 * t.number .failure / t.total + 100 * t.number .fatal / t.total : ℚ) = 100 := by
  have htotal : (t.total : ℚ) =
      t.number .success + t.number .warning + t.number .failure + t.number .fatal := by
    exact_mod_cast h.total
  have hne : (t.total : ℚ) ≠ 0 := by exact_mod_cast Nat.ne_of_gt hpos
  rw [← add_div, ← add_div, ← add_div, div_eq_iff hne, htotal]
  ring

theorem Balanced.percentages {t : Tally} (h : t.Balanced) :
    ∃ p, t.shares.Percentages t.total p := by
  have hexists := fun severity => Share.exists_value (h.number_le severity)
  choose p hvalue hnonneg hle hnear hempty using hexists
  have hbound : (2 : ℚ) ^ (-45 : Int) ≤ 1 / 10 ^ 12 / 4 := by norm_num
  refine ⟨p, ?_, ?_, hnonneg, hle, ?_, ?_, fun hzero severity => hempty severity hzero⟩
  · intro severity
    rw [share_shares]
    exact Share.rate?_of (h.number_le severity)
  · intro severity
    rw [share_shares]
    exact hvalue severity
  · intro hpos severity
    rw [share_shares]
    exact (hnear severity hpos).trans (hbound.trans (by norm_num))
  · intro hpos
    have hexact := h.sum_exact hpos
    have hsuccess := abs_le.mp (hnear .success hpos)
    have hwarning := abs_le.mp (hnear .warning hpos)
    have hfailure := abs_le.mp (hnear .failure hpos)
    have hfatal := abs_le.mp (hnear .fatal hpos)
    rw [abs_le]
    constructor <;> linarith

/-- The four percentages of a statistic lie between 0 and 100, hardly differ from the exact ones and
add up to a hundred but for rounding, for one language as for all. Of no attempts they are zero. -/
theorem percentages_add_up (attempts : List Attempt) (limit : Option Int) :
    (let s := LanguageStatistic.ofTally limit (ofAttempts attempts)
      ∃ p, s.shares.Percentages s.total p) ∧
      ∀ r : Record, let s := r.providerStatistic limit
        ∃ p, s.shares.Percentages s.totalConversions p :=
  ⟨(balanced_empty.foldl attempts).percentages, fun _ => (balanced_empty.foldl _).percentages⟩

end Tally

end ConversionCoverage
