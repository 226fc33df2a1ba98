import ConversionCoverage.Proofs.Decimal
import ConversionCoverage.Proofs.JsonNumber
import ConversionCoverage.Proofs.Redaction
import ConversionCoverage.Proofs.Shares

/-!
# Printed rates

The rates that the digest prints have two digits after the point, and they are as near to the ratio
of the two counts beside them as two digits allow.
-/

namespace ConversionCoverage

open Text

/-! ## Decimals with a fixed number of places -/

/-- A decimal with a fixed number of digits after the point, and its value. -/
def Text.IsFixed (places : Nat) (t : Text) (v : ℚ) : Prop :=
  ∃ whole fraction : Text, t = whole ++ .char '.' :: fraction ∧ whole ≠ [] ∧ whole.IsDigits ∧
    fraction.IsDigits ∧ fraction.length = places ∧
    v = Binary64.digitsValue (whole ++ fraction) / 10 ^ places

theorem Text.length_zeroPadded {width n : Nat} (hwidth : 0 < width) (hn : n < 10 ^ width) :
    (zeroPadded width n).length = width := by
  have hlength : (ofNat n).length ≤ width := by
    rw [length_ofNat, Binary64.digitCount_le_iff hwidth]
    exact hn
  rw [zeroPadded, List.length_append, zeros, List.length_replicate]
  omega

namespace Binary64

private theorem isFixed_split {places : Nat} (hplaces : 0 < places) (n : Nat) :
    IsFixed places (ofNat (n / 10 ^ places) ++ .char '.' :: zeroPadded places (n % 10 ^ places))
      (n / 10 ^ places) := by
  have hfraction : n % 10 ^ places < 10 ^ places := Nat.mod_lt n (by positivity)
  refine ⟨_, _, rfl, ofNat_ne_nil _, isDigits_ofNat _, Json.isDigits_zeroPadded _ _,
    length_zeroPadded hplaces hfraction, ?_⟩
  rw [digitsValue_append (isDigits_ofNat _) (Json.isDigits_zeroPadded _ _), digitsValue_ofNat,
    Json.digitsValue_zeroPadded, length_zeroPadded hplaces hfraction, Nat.div_add_mod']

/-- A number that is not negative is written with a fixed number of places as the nearest decimal,
which is no larger than any integer that the number itself does not exceed. -/
theorem exists_toFixed {places most : Nat} (hplaces : 0 < places) {q v : ℚ} {x : Binary64}
    (hx : Rounds q x) (hv : x.value? = some v) (hmost : v ≤ most) :
    ∃ w, IsFixed places (x.toFixed places) w ∧ 0 ≤ w ∧ w ≤ most ∧
      |w - v| ≤ 1 / (2 * 10 ^ places) := by
  obtain ⟨m, e, rfl, rfl⟩ := hx.exists_finite hv
  have hunit : (0 : ℚ) < 10 ^ places := by positivity
  obtain ⟨n, hn⟩ :
      ∃ n, divNearest (m <<< e.toNat * 10 ^ places) (1 <<< (-e).toNat) = n := ⟨_, rfl⟩
  have hd : 0 < 1 <<< (-e).toNat := by
    rw [Nat.shiftLeft_eq]
    positivity
  have hnear := abs_divNearest_sub_le (m <<< e.toNat * 10 ^ places) hd
  rw [hn, Nat.cast_mul, mul_div_right_comm, shift_div_shift] at hnear
  push_cast at hnear
  have htext : (finite false m e).toFixed places =
      ofNat (n / 10 ^ places) ++ .char '.' :: zeroPadded places (n % 10 ^ places) := by
    have hne : places ≠ 0 := Nat.ne_of_gt hplaces
    simp only [toFixed, hne, if_false]
    rw [← hn]
    rfl
  refine ⟨n / 10 ^ places, htext ▸ isFixed_split hplaces n, by positivity, ?_, ?_⟩
  · have hlarge : (m * 2 ^ e * 10 ^ places : ℚ) ≤ most * 10 ^ places := by gcongr
    have hbelow : (n : ℚ) < most * 10 ^ places + 1 := by
      have hhigh := (abs_le.mp hnear).2
      linarith
    have hn' : n ≤ most * 10 ^ places := by
      rw [← Nat.lt_add_one_iff]
      exact_mod_cast hbelow
    rw [div_le_iff₀ hunit]
    exact_mod_cast hn'
  · have hscaled : (n / 10 ^ places - m * 2 ^ e : ℚ) =
        (n - m * 2 ^ e * 10 ^ places) / 10 ^ places := by
      rw [sub_div, mul_div_assoc, div_self (ne_of_gt hunit), mul_one]
    rw [hscaled, abs_div, abs_of_pos hunit, ← div_div]
    gcongr

end Binary64

/-! ## The digest -/

namespace Digest

/-- A rate of success as a line of the digest prints it: a percentage, and the two counts that it is
the ratio of. -/
structure PrintedRate where
  percentage : Text
  successes : Nat
  total : Nat

namespace PrintedRate

def ratio (rate : PrintedRate) : Text :=
  "(" ++ Text.ofNat rate.successes ++ "/" ++ Text.ofNat rate.total ++ ")"

/-- The counts are those of some attempts. -/
structure Counts (rate : PrintedRate) (attempts : List Attempt) : Prop where
  successes : rate.successes = attempts.countP Attempt.succeeded
  total : rate.total = attempts.length

/-- The percentage is right as far as two places allow. -/
structure Accurate (rate : PrintedRate) : Prop where
  successes_le : rate.successes ≤ rate.total
  decimal : ∃ v, IsFixed 2 rate.percentage v ∧ 0 ≤ v ∧ v ≤ 100 ∧
    (0 < rate.total → |v - 100 * rate.successes / rate.total| ≤ 0.005 + 1 / 10 ^ 12)
  of_empty : rate.total = 0 → rate.percentage = "0.00"

/-- What is printed of a counter. -/
def ofCounter (c : Counter) : PrintedRate :=
  ⟨(Percentage.rate c.successes c.total).toFixed 2, c.successes, c.total⟩

theorem counts_ofTally {t : Tally} {attempts : List Attempt} (h : t.Counts attempts) :
    (ofCounter (.ofTally t)).Counts attempts where
  successes := h.number .success
  total := h.total

theorem Counts.accurate {c : Counter} {attempts : List Attempt}
    (h : (ofCounter c).Counts attempts) : (ofCounter c).Accurate := by
  have hle : c.successes ≤ c.total := by
    have hsuccesses : c.successes = attempts.countP Attempt.succeeded := h.successes
    have htotal : c.total = attempts.length := h.total
    rw [hsuccesses, htotal]
    exact List.countP_le_length
  obtain ⟨q, hrounds⟩ := Share.exists_rounds hle
  obtain ⟨v, hv, -, hmost, hnear, -⟩ := Share.exists_value hle
  have hhundred : v ≤ (100 : Nat) := by exact_mod_cast hmost
  obtain ⟨w, hfixed, hnonneg, hbelow, hprinted⟩ :=
    Binary64.exists_toFixed (by decide : 0 < 2) hrounds hv hhundred
  refine ⟨hle, ⟨w, hfixed, hnonneg, by exact_mod_cast hbelow, ?_⟩, ?_⟩
  · intro hpos
    calc |w - 100 * c.successes / c.total| ≤ |w - v| + |v - 100 * c.successes / c.total| :=
          abs_sub_le _ _ _
      _ ≤ 1 / (2 * 10 ^ 2) + 2 ^ (-45 : Int) := add_le_add hprinted (hnear hpos)
      _ ≤ 0.005 + 1 / 10 ^ 12 := by norm_num
  · intro hempty
    have hzero : c.total = 0 := hempty
    show (Percentage.rate c.successes c.total).toFixed 2 = _
    rw [hzero]
    rfl

end PrintedRate

open PrintedRate

private theorem overallLine_eq (c : Counter) :
    overallLine c =
      "Success rate: " ++ (ofCounter c).percentage ++ "% " ++ (ofCounter c).ratio := by
  have hsplit : ("% " : Text) = "%" ++ " " := rfl
  simp only [overallLine, Counter.rateText, hsplit, List.append_assoc]
  rfl

private theorem languageLine_eq (language : Text) (c : Counter) :
    languageLine language c = "Converted " ++ (ofCounter c).percentage ++ "% of " ++ language ++
      " examples " ++ (ofCounter c).ratio := by
  have hsplit : ("% of " : Text) = "%" ++ " of " := rfl
  simp only [languageLine, Counter.rateText, hsplit, List.append_assoc]
  rfl

end Digest

/-- Each rate that the digest prints has two places, lies between 0 and 100 and is as near to the
ratio of the counts beside it as two places allow, of all attempts and of those for each language.
Of no attempts it is zero. -/
theorem Record.digest_rates (r : Record) :
    ∃ (overall : Digest.PrintedRate) (languages : List (Text × Digest.PrintedRate)),
      r.digest = Text.join "\n" (["Provider:     " ++ r.provider,
        "Success rate: " ++ overall.percentage ++ "% " ++ overall.ratio, []] ++
        languages.map fun (language, rate) => "Converted " ++ rate.percentage ++ "% of " ++
          language ++ " examples " ++ rate.ratio) ++ "\n" ∧
      overall.Counts r.attempts ∧ overall.Accurate ∧
      languages.map Prod.fst = Text.distinct (r.attempts.map Attempt.language) ∧
      ∀ entry ∈ languages, entry.2.Counts (r.attemptsFor entry.1) ∧ entry.2.Accurate := by
  have hoverall := Digest.PrintedRate.counts_ofTally r.counts_conversions
  have hlanguage (language : Text) :=
    Digest.PrintedRate.counts_ofTally (r.counts_conversionsFor language)
  have hdistinct : Text.distinct (r.conversions.map Attempt.language) =
      Text.distinct (r.attempts.map Attempt.language) :=
    Text.distinct_congr fun t => (r.conversions_perm_attempts.map Attempt.language).mem_iff
  refine ⟨_, (Text.distinct (r.attempts.map Attempt.language)).map fun language =>
    (language, .ofCounter (.ofTally (Tally.ofAttempts
      (r.conversions.filter fun a => a.language = language)))), ?_, hoverall, hoverall.accurate,
    ?_, ?_⟩
  · simp only [digest_eq_lines, Digest.lines, Digest.overallLine_eq, Digest.languageLine_eq,
      hdistinct, List.map_map, Function.comp_def]
  · rw [List.map_map]
    exact List.map_id _
  · intro entry hentry
    obtain ⟨language, -, rfl⟩ := List.mem_map.mp hentry
    exact ⟨hlanguage language, (hlanguage language).accurate⟩

end ConversionCoverage
