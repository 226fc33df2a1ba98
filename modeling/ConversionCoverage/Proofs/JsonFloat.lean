import ConversionCoverage.Json.Printer
import ConversionCoverage.Proofs.Decimal
import ConversionCoverage.Proofs.JsonNumber

/-!
# Doubles in JSON

Doubles are read back from their numerals, and those that have none from their words.
-/

namespace ConversionCoverage.Binary64

open Text Json

/-- A numeral with a fraction or an exponent that stands for `digits * 10 ^ exponent`. -/
def Numeral (t : Text) (digits : Nat) (exponent : Int) : Prop :=
  ∃ (whole fraction : Text) (e? : Option Int), IsWhole whole ∧ fraction.IsDigits ∧
    ¬ (fraction = [] ∧ e? = none) ∧ t = whole ++ (fractionPart fraction ++ exponentText e?) ∧
    digitsValue (whole ++ fraction) = digits ∧ e?.getD 0 - fraction.length = exponent

theorem numeral_pointed {t whole fraction : Text} {digits : Nat} {exponent : Int}
    (hwhole : IsWhole whole) (hfraction : fraction.IsDigits) (hne : fraction ≠ [])
    (ht : t = whole ++ .char '.' :: fraction) (hdigits : digitsValue (whole ++ fraction) = digits)
    (hexponent : -fraction.length = exponent) : Numeral t digits exponent := by
  refine ⟨whole, fraction, none, hwhole, hfraction, fun h => hne h.1, ?_, hdigits, ?_⟩
  · rw [ht, fractionPart, if_neg hne, exponentText, List.append_nil]
  · rw [← hexponent, Option.getD_none, Int.zero_sub]

/-- However the digits are laid out, they stand for the same value, perhaps with zeros added. -/
theorem numeral_layOut {digits : Text} (hdigits : digits.IsDigits)
    (hhead : ∃ c t, digits = c :: t ∧ c ≠ .char '0') (point : Int) :
    ∃ z : Nat, Numeral (layOut digits point) (digitsValue digits * 10 ^ z)
      (point - digits.length - z) := by
  have hne : digits ≠ [] := by
    obtain ⟨c, t, rfl, -⟩ := hhead
    exact List.cons_ne_nil c t
  have hpos : 0 < digits.length := List.length_pos_iff.mpr hne
  have htake (n : Nat) (hn : 0 < n) : IsWhole (digits.take n) := by
    refine .inr ⟨hdigits.sublist (List.take_sublist n digits), ?_⟩
    obtain ⟨c, t, rfl, hc⟩ := hhead
    obtain ⟨k, rfl⟩ := Nat.exists_eq_succ_of_ne_zero (Nat.ne_of_gt hn)
    exact ⟨c, t.take k, rfl, hc⟩
  have happend (u : Text) (hu : u.IsDigits) : IsWhole (digits ++ u) := by
    refine .inr ⟨hdigits.append hu, ?_⟩
    obtain ⟨c, t, rfl, hc⟩ := hhead
    exact ⟨c, t ++ u, rfl, hc⟩
  have hdrop (n : Nat) : IsDigits (digits.drop n) := hdigits.sublist (List.drop_sublist n digits)
  unfold layOut
  -- The layouts: zeros before the digits, zeros after them, a point between them, an exponent.
  split
  · split
    · have hfraction := (isDigits_zeros (-point).toNat).append hdigits
      refine ⟨0, numeral_pointed (.inl rfl) hfraction (by simp [hne]) ?_ ?_ ?_⟩
      · rw [List.append_assoc]
        rfl
      · exact (digitsValue_zeros_append hfraction 1).trans
          ((digitsValue_zeros_append hdigits _).trans (Nat.mul_one _).symm)
      · rw [List.length_append, zeros, List.length_replicate]
        omega
    · split
      · rename_i hpoint hlong
        have hwhole := happend _ (isDigits_zeros (point.toNat - digits.length))
        refine ⟨point.toNat - digits.length + 1,
          numeral_pointed hwhole (isDigits_zeros 1) (List.cons_ne_nil _ _) rfl ?_ ?_⟩
        · rw [digitsValue_append_zeros hwhole.isDigits, digitsValue_append_zeros hdigits,
            Nat.mul_assoc, Nat.pow_add]
        · rw [zeros, List.length_replicate]
          omega
      · rename_i hpoint hshort
        refine ⟨0, numeral_pointed (htake point.toNat (by omega)) (hdrop point.toNat) ?_ ?_ ?_ ?_⟩
        · rw [ne_eq, List.drop_eq_nil_iff]
          omega
        · rw [List.append_assoc]
          rfl
        · rw [List.take_append_drop, Nat.pow_zero, Nat.mul_one]
        · rw [List.length_drop]
          omega
  · have hpart : (if digits.length ≤ 1 then [] else .char '.' :: digits.drop 1) =
        fractionPart (digits.drop 1) := by
      simp only [fractionPart, List.drop_eq_nil_iff]
    refine ⟨0, digits.take 1, digits.drop 1, some (point - 1), htake 1 Nat.one_pos, hdrop 1,
      by simp, ?_, ?_, ?_⟩
    · simp only [hpart, List.append_assoc]
      rfl
    · rw [List.take_append_drop, Nat.pow_zero, Nat.mul_one]
    · rw [List.length_drop, Option.getD_some]
      omega

theorem toText_finite (negative : Bool) {m digits : Nat} {e exponent point : Int} {shown : Text}
    (hm : m ≠ 0) (hshortest : shortest m e = (digits, exponent))
    (hshown : significantDigits digits exponent = (shown, point)) :
    toText (.finite negative m e) = signPart negative ++ layOut shown point := by
  rw [toText, if_neg hm, hshortest]
  simp only [hshown]

/-- The numeral of a double other than zero stands for digits that are read as the double. -/
theorem toText_eq {m : Nat} {e : Int} (negative : Bool) (hx : (finite false m e).Stored)
    (hm : m ≠ 0) :
    ∃ t digits exponent, toText (.finite negative m e) = signPart negative ++ t ∧
      Numeral t digits exponent ∧ ofDecimal negative digits exponent = .finite negative m e := by
  have hread := ofDecimal_shortest negative hx hm
  obtain ⟨⟨digits, k⟩, hshortest⟩ : ∃ decimal, shortest m e = decimal := ⟨_, rfl⟩
  rw [hshortest] at hread
  have hdigits : 0 < digits := by
    apply Nat.pos_of_ne_zero
    rintro rfl
    rw [ofDecimal, if_pos (.inl rfl), zero] at hread
    cases hread
    exact hm rfl
  obtain ⟨shown, z, hall, hhead, hsignificant⟩ := significantDigits_eq hdigits k
  have hshown : shown.IsDigits :=
    (isDigits_ofNat digits).sublist (hall ▸ List.sublist_append_left shown (zeros z))
  have hvalue : digits = digitsValue shown * 10 ^ z := by
    rw [← digitsValue_append_zeros hshown, ← hall, digitsValue_ofNat]
  obtain ⟨y, hnumeral⟩ := numeral_layOut hshown hhead (shown.length + z + k)
  refine ⟨_, _, _, toText_finite negative hm hshortest hsignificant, hnumeral, ?_⟩
  have hplaces : (shown.length : Int) + z + k - shown.length - y = k + z - y := by ring
  have hmoved := ofDecimal_mul_pow negative (digitsValue shown) z (k + z)
  rw [← hvalue, add_sub_cancel_right, hread] at hmoved
  rw [hplaces, ofDecimal_mul_pow, ← hmoved]

end ConversionCoverage.Binary64

namespace ConversionCoverage.Json

open Text Binary64

theorem readPlain_numeral (maxDigits : Nat) (negative : Bool) {t rest : Text} {digits : Nat}
    {exponent : Int} (ht : Numeral t digits exponent) (hrest : EndsNumber rest) :
    readPlain maxDigits (signPart negative ++ t ++ rest) =
      .ok (.float (ofDecimal negative digits exponent), rest) := by
  obtain ⟨whole, fraction, e?, hwhole, hfraction, hfloat, rfl, rfl, rfl⟩ := ht
  obtain ⟨c, u, rfl, hc⟩ := hwhole.exists_cons
  simp only [List.append_assoc]
  rw [List.cons_append, readPlain_signPart _ _ _ _ hc, ← List.cons_append]
  exact readUnsigned_float _ _ _ hwhole hfraction hfloat hrest

private theorem numeral_zero : Numeral "0.0" 0 (-1) :=
  numeral_pointed (.inl rfl) (isDigits_zeros 1) (List.cons_ne_nil _ _) rfl rfl rfl

theorem readPlain_printFloat (maxDigits : Nat) {x : Binary64} (hx : x.Stored) {rest : Text}
    (hrest : EndsNumber rest) :
    readPlain maxDigits (printFloat x ++ rest) = .ok (.float x, rest) := by
  cases x with
  | nan => rfl
  | infinite negative => cases negative <;> rfl
  | finite negative m e =>
    show readPlain maxDigits (Binary64.toText (.finite negative m e) ++ rest) = _
    by_cases hm : m = 0
    · have he : e = -1074 := by
        have hform := hx.2.2.2
        omega
      have hzero : Binary64.toText (.finite negative m e) = signPart negative ++ "0.0" := by
        rw [Binary64.toText, if_pos hm]
      rw [hzero, readPlain_numeral maxDigits negative numeral_zero hrest, hm, he]
      rfl
    · obtain ⟨t, digits, exponent, htext, hnumeral, hread⟩ := toText_eq negative hx hm
      rw [htext, readPlain_numeral maxDigits negative hnumeral hrest, hread]

end ConversionCoverage.Json
