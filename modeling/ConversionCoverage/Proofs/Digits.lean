import ConversionCoverage.Binary64.Decimal
import Mathlib.Algebra.Ring.Nat
import Mathlib.Data.List.Basic

/-!
# Runs of digits

The numbers that runs of ASCII digits stand for, and the digits of a number.
-/

namespace ConversionCoverage

/-- A text of ASCII digits only. -/
def Text.IsDigits (t : Text) : Prop := ∀ c ∈ t, c.asciiDigit?.isSome

namespace Text

private theorem isDigits_map_char (cs : List Char) (h : ∀ c ∈ cs, c.isDigit) :
    IsDigits (cs.map .char) := by
  intro c hc
  obtain ⟨d, hd, rfl⟩ := List.mem_map.mp hc
  simp [CodePoint.asciiDigit?, h d hd]

theorem IsDigits.exists_map_char {t : Text} (h : t.IsDigits) :
    ∃ cs : List Char, (∀ c ∈ cs, c.isDigit) ∧ t = cs.map .char := by
  induction t with
  | nil => exact ⟨[], by simp, rfl⟩
  | cons c t ih =>
    obtain ⟨cs, hcs, rfl⟩ := ih fun d hd => h d (List.mem_cons_of_mem _ hd)
    have hc : c.asciiDigit?.isSome := h c List.mem_cons_self
    cases c with
    | half k => simp [CodePoint.asciiDigit?] at hc
    | char c =>
      have hdigit : c.isDigit := by
        cases hdigit : c.isDigit with
        | false => simp [CodePoint.asciiDigit?, hdigit] at hc
        | true => rfl
      exact ⟨c :: cs, by simpa [hdigit] using hcs, rfl⟩

theorem IsDigits.append {t u : Text} (ht : t.IsDigits) (hu : u.IsDigits) : (t ++ u).IsDigits :=
  fun c hc => (List.mem_append.mp hc).elim (ht c) (hu c)

theorem IsDigits.sublist {t u : Text} (hu : u.IsDigits) (h : t.Sublist u) : t.IsDigits :=
  fun c hc => hu c (h.subset hc)

theorem isDigits_zeros (n : Nat) : (zeros n).IsDigits := by
  intro c hc
  rw [(List.mem_replicate.mp hc).2]
  rfl

theorem ofNat_eq_map (n : Nat) : ofNat n = (Nat.toDigits 10 n).map .char := by
  rw [ofNat, ofString, Nat.toList_repr]

theorem ofNat_ne_nil (n : Nat) : ofNat n ≠ [] := by
  rw [ofNat_eq_map]
  simp [Nat.toDigits_ne_nil]

theorem isDigits_ofNat (n : Nat) : (ofNat n).IsDigits := by
  rw [ofNat_eq_map]
  exact isDigits_map_char _ fun c hc => Nat.isDigit_of_mem_toDigits (by decide) (by decide) hc

theorem length_ofNat (n : Nat) : (ofNat n).length = Binary64.digitCount n := by
  rw [ofNat_eq_map, List.length_map, Binary64.digitCount]

private theorem head?_toDigits {n : Nat} (h : 0 < n) : (Nat.toDigits 10 n).head? ≠ some '0' := by
  induction n using Nat.strongRecOn with
  | ind n ih =>
    rw [Nat.toDigits_eq_if (by decide)]
    split
    · simpa using Nat.ne_of_gt h
    · have hsmall : n / 10 < n := Nat.div_lt_self h (by decide)
      have hpos : 0 < n / 10 := by omega
      rw [List.head?_append_of_ne_nil _ Nat.toDigits_ne_nil]
      exact ih (n / 10) hsmall hpos

theorem exists_ofNat_eq_cons {n : Nat} (h : 0 < n) :
    ∃ c t, ofNat n = c :: t ∧ c ≠ .char '0' := by
  cases hdigits : Nat.toDigits 10 n with
  | nil => exact absurd hdigits Nat.toDigits_ne_nil
  | cons c cs =>
    refine ⟨.char c, cs.map .char, by rw [ofNat_eq_map, hdigits]; rfl, ?_⟩
    intro hc
    cases hc
    exact head?_toDigits h (by rw [hdigits]; rfl)

end Text

namespace CodePoint

theorem decimalValue?_of_isDigit {c : Char} (h : c.isDigit) :
    decimalValue? (.char c) = some (c.toNat - '0'.toNat) := by
  have hc : 48 ≤ c.toNat ∧ c.toNat ≤ 57 := by
    simpa [Char.isDigit, UInt32.le_iff_toNat_le] using h
  have hfound : decimalZeros.find? (fun first =>
      decide (first ≤ (CodePoint.char c).toNat) && decide ((CodePoint.char c).toNat < first + 10)) =
      some 48 := by
    have hlast : c.toNat < 48 + 10 := by omega
    rw [decimalZeros, List.find?_cons_of_pos]
    simp [toNat, hc.1, hlast]
  rw [decimalValue?, hfound]
  rfl

end CodePoint

namespace Binary64

open Text

theorem digitsValue_map_char (cs : List Char) (h : ∀ c ∈ cs, c.isDigit) :
    digitsValue (cs.map .char) = Nat.ofDigitChars 10 cs 0 := by
  have hvalues : (cs.map CodePoint.char).filterMap CodePoint.decimalValue? =
      cs.map fun c => c.toNat - '0'.toNat := by
    rw [List.filterMap_map, ← List.filterMap_eq_map]
    apply List.filterMap_congr
    intro c hc
    exact CodePoint.decimalValue?_of_isDigit (h c hc)
  rw [digitsValue, hvalues, List.foldl_map, Nat.ofDigitChars_eq_foldl]
  simp only [Nat.mul_comm]

theorem digitsValue_ofNat (n : Nat) : digitsValue (ofNat n) = n := by
  rw [ofNat_eq_map, digitsValue_map_char _ fun c hc =>
    Nat.isDigit_of_mem_toDigits (by decide) (by decide) hc]
  exact Nat.ofDigitChars_toDigits (by decide) (by decide)

theorem digitsValue_append {t u : Text} (ht : t.IsDigits) (hu : u.IsDigits) :
    digitsValue (t ++ u) = digitsValue t * 10 ^ u.length + digitsValue u := by
  obtain ⟨cs, hcs, rfl⟩ := ht.exists_map_char
  obtain ⟨ds, hds, rfl⟩ := hu.exists_map_char
  have hboth : ∀ c ∈ cs ++ ds, c.isDigit := fun c hc =>
    (List.mem_append.mp hc).elim (hcs c) (hds c)
  rw [← List.map_append, digitsValue_map_char _ hboth, digitsValue_map_char _ hcs,
    digitsValue_map_char _ hds, Nat.ofDigitChars_append, Nat.ofDigitChars_eq_ofDigitChars_zero,
    List.length_map, Nat.mul_comm]

theorem digitsValue_zeros (n : Nat) : digitsValue (zeros n) = 0 := by
  have hzeros : zeros n = (List.replicate n '0').map .char := by
    rw [zeros, List.map_replicate]
  rw [hzeros, digitsValue_map_char, Nat.ofDigitChars_replicate_zero, Nat.mul_zero]
  intro c hc
  rw [(List.mem_replicate.mp hc).2]
  rfl

theorem digitsValue_append_zeros {t : Text} (ht : t.IsDigits) (n : Nat) :
    digitsValue (t ++ zeros n) = digitsValue t * 10 ^ n := by
  rw [digitsValue_append ht (isDigits_zeros n), digitsValue_zeros, zeros, List.length_replicate,
    Nat.add_zero]

theorem digitsValue_zeros_append {t : Text} (ht : t.IsDigits) (n : Nat) :
    digitsValue (zeros n ++ t) = digitsValue t := by
  rw [digitsValue_append (isDigits_zeros n) ht, digitsValue_zeros, Nat.zero_mul, Nat.zero_add]

end Binary64

end ConversionCoverage
