import ConversionCoverage.Json.Reader
import ConversionCoverage.Proofs.Digits
import Mathlib.Data.List.TakeDrop

/-!
# Numbers in JSON

How numbers are taken apart when they are read. Integers are read back from their numerals.
-/

namespace ConversionCoverage.Json

open Text

/-- A text that does not go on with a digit. -/
def NoDigit (rest : Text) : Prop := ∀ c ∈ rest.head?, c.asciiDigit? = none

/-- A text that does not go on with anything that belongs to a number. -/
def EndsNumber (rest : Text) : Prop :=
  ∀ c ∈ rest.head?, c.asciiDigit? = none ∧ c ≠ '.' ∧ c ≠ 'e' ∧ c ≠ 'E'

theorem EndsNumber.noDigit {rest : Text} (h : EndsNumber rest) : NoDigit rest :=
  fun c hc => (h c hc).1

theorem spanDigits_append {t rest : Text} (ht : t.IsDigits) (hrest : NoDigit rest) :
    spanDigits (t ++ rest) = (t, rest) := by
  have htake : rest.takeWhile (fun c => c.asciiDigit?.isSome) = [] := by
    cases rest with
    | nil => rfl
    | cons c rest => simp [hrest c rfl]
  have hdrop : rest.dropWhile (fun c => c.asciiDigit?.isSome) = rest := by
    cases rest with
    | nil => rfl
    | cons c rest => simp [hrest c rfl]
  rw [spanDigits, List.span_eq_takeWhile_dropWhile, List.takeWhile_append_of_pos ht,
    List.dropWhile_append_of_pos ht, htake, hdrop, List.append_nil]

/-- The whole part of a number as it is written: a zero, or digits after one that is not zero. -/
def IsWhole (whole : Text) : Prop :=
  whole = [.char '0'] ∨ whole.IsDigits ∧ ∃ c t, whole = c :: t ∧ c ≠ .char '0'

theorem isWhole_ofNat (n : Nat) : IsWhole (ofNat n) := by
  rcases Nat.eq_zero_or_pos n with rfl | hn
  · exact .inl rfl
  · exact .inr ⟨isDigits_ofNat n, exists_ofNat_eq_cons hn⟩

theorem IsWhole.exists_cons {whole : Text} (h : IsWhole whole) :
    ∃ c t, whole = c :: t ∧ c.asciiDigit?.isSome := by
  rcases h with rfl | ⟨hdigits, c, t, rfl, -⟩
  · exact ⟨.char '0', [], rfl, rfl⟩
  · exact ⟨c, t, rfl, hdigits c List.mem_cons_self⟩

theorem IsWhole.isDigits {whole : Text} (h : IsWhole whole) : whole.IsDigits := by
  rcases h with rfl | ⟨hdigits, -⟩
  · exact isDigits_zeros 1
  · exact hdigits

theorem spanWhole_append {whole rest : Text} (hwhole : IsWhole whole) (hrest : NoDigit rest) :
    spanWhole (whole ++ rest) = (whole, rest) := by
  rcases hwhole with rfl | ⟨hdigits, c, t, rfl, hc⟩
  · rfl
  · have hspan : spanWhole (c :: t ++ rest) = spanDigits (c :: t ++ rest) := by
      rw [List.cons_append, spanWhole]
      intro rest' h
      exact hc (List.cons.inj h).1
    rw [hspan, spanDigits_append hdigits hrest]

/-- The fraction as it is written, nothing for an empty one. -/
def fractionPart (fraction : Text) : Text := if fraction = [] then [] else '.' :: fraction

theorem spanFraction_append {fraction rest : Text} (hfraction : fraction.IsDigits)
    (hrest : NoDigit rest) (hpoint : rest.head? ≠ some (.char '.')) :
    spanFraction (fractionPart fraction ++ rest) = (fraction, rest) := by
  unfold fractionPart
  split
  · rename_i hempty
    rw [hempty, List.nil_append, spanFraction]
    intro rest' h
    exact hpoint (by rw [h]; rfl)
  · rename_i hne
    rw [List.cons_append, spanFraction]
    simp only [spanDigits_append hfraction hrest, hne, if_false]

/-- The exponent as it is written, if there is one. -/
def exponentText : Option Int → Text
  | none => []
  | some e => Binary64.exponentPart e

theorem zeroPadded_two_ne_nil (n : Nat) : zeroPadded 2 n ≠ [] := by
  intro h
  have hlength := congrArg List.length h
  simp only [zeroPadded, zeros, List.length_append, List.length_replicate, List.length_nil]
    at hlength
  omega

theorem isDigits_zeroPadded (width n : Nat) : (zeroPadded width n).IsDigits :=
  (isDigits_zeros _).append (isDigits_ofNat n)

theorem digitsValue_zeroPadded (width n : Nat) :
    Binary64.digitsValue (zeroPadded width n) = n := by
  rw [zeroPadded, Binary64.digitsValue_zeros_append (isDigits_ofNat n),
    Binary64.digitsValue_ofNat]

theorem spanExponent_append (e? : Option Int) {rest : Text} (hrest : EndsNumber rest) :
    spanExponent (exponentText e? ++ rest) = (e?, rest) := by
  cases e? with
  | none =>
    rw [exponentText, List.nil_append]
    cases rest with
    | nil => rfl
    | cons c rest =>
      cases c with
      | half k => rfl
      | char c =>
        have hc := hrest (.char c) rfl
        have hletter : ¬ (c = 'e' ∨ c = 'E') := by
          rintro (rfl | rfl)
          · exact hc.2.2.1 rfl
          · exact hc.2.2.2 rfl
        simp only [spanExponent, hletter, if_false]
  | some e =>
    have hspan : spanDigits (zeroPadded 2 e.natAbs ++ rest) = (zeroPadded 2 e.natAbs, rest) :=
      spanDigits_append (isDigits_zeroPadded 2 _) hrest.noDigit
    rw [exponentText, Binary64.exponentPart]
    split
    · rename_i hneg
      simp only [List.cons_append, spanExponent, true_or, if_true, hspan,
        zeroPadded_two_ne_nil, if_false, digitsValue_zeroPadded]
      rw [show -((e.natAbs : Nat) : Int) = e by omega]
    · rename_i hpos
      simp only [List.cons_append, spanExponent, true_or, if_true, hspan,
        zeroPadded_two_ne_nil, if_false, digitsValue_zeroPadded]
      rw [show ((e.natAbs : Nat) : Int) = e by omega]
      rfl

private theorem noDigit_exponentText (e? : Option Int) {rest : Text} (hrest : EndsNumber rest) :
    NoDigit (exponentText e? ++ rest) := by
  cases e? with
  | none => exact hrest.noDigit
  | some e =>
    intro c hc
    cases hc
    rfl

private theorem head?_exponentText_ne (e? : Option Int) {rest : Text} (hrest : EndsNumber rest) :
    (exponentText e? ++ rest).head? ≠ some (.char '.') := by
  cases e? with
  | none => exact fun h => (hrest (.char '.') h).2.1 rfl
  | some e =>
    intro h
    cases h

private theorem noDigit_fractionPart (fraction : Text) {rest : Text} (hrest : NoDigit rest) :
    NoDigit (fractionPart fraction ++ rest) := by
  unfold fractionPart
  split
  · exact hrest
  · intro c hc
    cases hc
    rfl

variable (maxDigits : Nat) (place : Text) (negative : Bool)

theorem readUnsigned_float {whole fraction rest : Text} {e? : Option Int} (hwhole : IsWhole whole)
    (hfraction : fraction.IsDigits) (hfloat : ¬ (fraction = [] ∧ e? = none))
    (hrest : EndsNumber rest) :
    readUnsigned maxDigits place negative
        (whole ++ (fractionPart fraction ++ (exponentText e? ++ rest))) =
      .ok (.float (Binary64.ofDecimal negative (Binary64.digitsValue (whole ++ fraction))
        (e?.getD 0 - fraction.length)), rest) := by
  have hne : whole ≠ [] := by
    obtain ⟨c, t, rfl, -⟩ := hwhole.exists_cons
    exact List.cons_ne_nil c t
  have htail : NoDigit (exponentText e? ++ rest) := noDigit_exponentText e? hrest
  rw [readUnsigned, spanWhole_append hwhole (noDigit_fractionPart fraction htail)]
  simp only [hne, if_false, spanFraction_append hfraction htail (head?_exponentText_ne e? hrest),
    spanExponent_append e? hrest, hfloat]

private theorem readUnsigned_ofNat (n : Nat) {rest : Text} (hn : Binary64.digitCount n ≤ maxDigits)
    (hrest : EndsNumber rest) :
    readUnsigned maxDigits place negative (ofNat n ++ rest) =
      .ok (.int (if negative then -n else n), rest) := by
  have hfraction : spanFraction rest = ([], rest) :=
    @spanFraction_append [] rest (fun _ h => nomatch h) hrest.noDigit
      fun h => (hrest (.char '.') h).2.1 rfl
  have hexponent : spanExponent rest = (none, rest) := spanExponent_append none hrest
  have hlength : ¬ maxDigits < (ofNat n).length := by
    rw [length_ofNat]
    exact Nat.not_lt.mpr hn
  rw [readUnsigned, spanWhole_append (isWhole_ofNat n) hrest.noDigit]
  simp only [ofNat_ne_nil, if_false, hfraction, hexponent, and_self, if_true, hlength,
    Binary64.digitsValue_ofNat]

theorem dropWord?_of_ne {c d : CodePoint} (word t : Text) (h : c ≠ d) :
    dropWord? (c :: word) (d :: t) = none := by
  simp [dropWord?, List.isPrefixOf, h]

private theorem dropWord?_cons_cons (c : CodePoint) (word t : Text) :
    dropWord? (c :: word) (c :: t) = dropWord? word t := by
  simp [dropWord?, List.isPrefixOf]

theorem ne_of_asciiDigit? {c : CodePoint} (hc : c.asciiDigit?.isSome) (d : Char)
    (hd : d.isDigit = false) : .char d ≠ c := by
  rintro rfl
  simp [CodePoint.asciiDigit?, hd] at hc

/-- What begins with a digit or a minus is no word, unless it is the negative infinity. -/
theorem readPlain_cons (c : CodePoint) (t : Text) (hc : c.asciiDigit?.isSome ∨ c = '-')
    (hminus : dropWord? "-Infinity" (c :: t) = none) :
    readPlain maxDigits (c :: t) =
      match c :: t with
      | .char '-' :: rest => readUnsigned maxDigits (c :: t) true rest
      | _ => readUnsigned maxDigits (c :: t) false (c :: t) := by
  have hword (d : Char) (word : Text) (hd : d.isDigit = false) (hd' : (CodePoint.char d) ≠ '-') :
      dropWord? (.char d :: word) (c :: t) = none := by
    apply dropWord?_of_ne
    rcases hc with hc | rfl
    · exact ne_of_asciiDigit? hc d hd
    · exact hd'
  have hnull : dropWord? "null" (c :: t) = none := hword 'n' "ull" rfl (by decide)
  have htrue : dropWord? "true" (c :: t) = none := hword 't' "rue" rfl (by decide)
  have hfalse : dropWord? "false" (c :: t) = none := hword 'f' "alse" rfl (by decide)
  have hnan : dropWord? "NaN" (c :: t) = none := hword 'N' "aN" rfl (by decide)
  have hinfinity : dropWord? "Infinity" (c :: t) = none := hword 'I' "nfinity" rfl (by decide)
  simp only [readPlain, hnull, htrue, hfalse, hnan, hinfinity, hminus, Option.map_none]
  rfl

theorem readPlain_signPart (c : CodePoint) (t : Text) (hc : c.asciiDigit?.isSome) :
    readPlain maxDigits (Binary64.signPart negative ++ c :: t) =
      readUnsigned maxDigits (Binary64.signPart negative ++ c :: t) negative (c :: t) := by
  have hne : CodePoint.char '-' ≠ c := ne_of_asciiDigit? hc '-' rfl
  cases negative with
  | false =>
    refine (readPlain_cons maxDigits c t (.inl hc) (dropWord?_of_ne _ _ hne)).trans ?_
    split
    · rename_i h
      exact absurd (List.cons.inj h).1.symm hne
    · rfl
  | true =>
    have hminus : dropWord? "-Infinity" ('-' :: c :: t) = none :=
      (dropWord?_cons_cons '-' "Infinity" (c :: t)).trans
        (dropWord?_of_ne _ t (ne_of_asciiDigit? hc 'I' rfl))
    exact readPlain_cons maxDigits '-' (c :: t) (.inr rfl) hminus

theorem ofInt_eq (n : Int) : ofInt n = Binary64.signPart (decide (n < 0)) ++ ofNat n.natAbs := by
  cases n with
  | ofNat n => rfl
  | negSucc n =>
    have hneg : Int.negSucc n < 0 := Int.negSucc_lt_zero n
    rw [decide_eq_true hneg]
    rfl

theorem readPlain_ofInt (n : Int) {rest : Text} (hn : Binary64.digitCount n.natAbs ≤ maxDigits)
    (hrest : EndsNumber rest) :
    readPlain maxDigits (ofInt n ++ rest) = .ok (.int n, rest) := by
  obtain ⟨c, t, hcons, hc⟩ := (isWhole_ofNat n.natAbs).exists_cons
  have hsign : (if decide (n < 0) then -((n.natAbs : Nat) : Int) else (n.natAbs : Nat)) = n := by
    by_cases h : n < 0
    · rw [decide_eq_true h, if_pos rfl]
      omega
    · rw [decide_eq_false h, if_neg (by decide)]
      omega
  rw [ofInt_eq, List.append_assoc, hcons, List.cons_append, readPlain_signPart _ _ _ _ hc,
    ← List.cons_append, ← hcons, readUnsigned_ofNat _ _ _ _ hn hrest, hsign]

end ConversionCoverage.Json
