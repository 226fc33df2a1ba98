import ConversionCoverage.Proofs.Digits
import ConversionCoverage.Text.Numeral
import Mathlib.Data.List.TakeWhile

/-!
# Reading numerals

A run of decimal digits, of whatever script, is read as its number unless there are too many of
them. Among digits of other kinds nothing is read.
-/

namespace ConversionCoverage

/-! ## Classes of code points -/

namespace CodePoint

/-- A code point in one of some ranges, both ends included. -/
def InRanges (ranges : List (Nat × Nat)) (c : CodePoint) : Prop :=
  ∃ range ∈ ranges, range.1 ≤ c.toNat ∧ c.toNat ≤ range.2

/-- The ranges of the digits of all kinds. -/
def digitRanges : List (Nat × Nat) :=
  decimalZeros.map (fun first => (first, first + 9)) ++ otherDigitRanges

/-- The ranges of the blanks. -/
def blankRanges : List (Nat × Nat) := [
  (9, 13), (0x1C, 0x20), (0x85, 0x85), (0xA0, 0xA0), (0x1680, 0x1680), (0x2000, 0x200A),
  (0x2028, 0x2029), (0x202F, 0x202F), (0x205F, 0x205F), (0x3000, 0x3000)]

/-- No range of the one list meets a range of the other. -/
abbrev Apart (ranges others : List (Nat × Nat)) : Prop :=
  ∀ range ∈ ranges, ∀ other ∈ others, range.2 < other.1 ∨ other.2 < range.1

theorem InRanges.not_of_apart {ranges others : List (Nat × Nat)} {c : CodePoint}
    (h : c.InRanges ranges) (hapart : Apart ranges others) : ¬ c.InRanges others := by
  rintro ⟨other, hother, hlow, hhigh⟩
  obtain ⟨range, hrange, hfirst, hlast⟩ := h
  have hdisjoint := hapart range hrange other hother
  omega

theorem isDigit_iff {c : CodePoint} : c.isDigit ↔ c.InRanges digitRanges := by
  rw [isDigit, decimalValue?, Option.isSome_map, Bool.or_eq_true, List.find?_isSome,
    List.any_eq_true]
  simp only [InRanges, digitRanges, List.mem_append, List.mem_map, Bool.and_eq_true,
    decide_eq_true_eq]
  constructor
  · rintro (⟨first, hfirst, hlow, hhigh⟩ | ⟨range, hrange, hlow, hhigh⟩)
    · exact ⟨_, .inl ⟨first, hfirst, rfl⟩, hlow, by omega⟩
    · exact ⟨range, .inr hrange, hlow, hhigh⟩
  · rintro ⟨_, ⟨first, hfirst, rfl⟩ | hrange, hlow, hhigh⟩
    · exact .inl ⟨first, hfirst, hlow, by omega⟩
    · exact .inr ⟨_, hrange, hlow, hhigh⟩

private theorem isBlank_iff {c : CodePoint} : c.isBlank ↔ c.InRanges blankRanges := by
  simp only [isBlank, isWideBlank, InRanges, blankRanges, Bool.or_eq_true, Bool.and_eq_true,
    decide_eq_true_eq, beq_iff_eq, List.exists_mem_cons_iff, List.not_mem_nil, false_and,
    exists_false, or_false]
  omega

private theorem isBlank_of_isSpace {c : CodePoint} (h : c.isSpace) : c.isBlank := by
  simp only [isSpace, isBlank, Bool.or_eq_true, Bool.and_eq_true, decide_eq_true_eq,
    beq_iff_eq] at h ⊢
  rcases h with (h | h) | h
  · exact .inl (.inl h)
  · exact .inl (.inr (by omega))
  · exact .inr h

theorem isBlank_of_apart {ranges : List (Nat × Nat)} {c : CodePoint} (h : c.InRanges ranges)
    (hapart : Apart ranges blankRanges) : c.isBlank = false := by
  rw [Bool.eq_false_iff, ne_eq, isBlank_iff]
  exact h.not_of_apart hapart

theorem isBlank_of_isDigit {c : CodePoint} (h : c.isDigit) : c.isBlank = false :=
  isBlank_of_apart (isDigit_iff.mp h) (by decide)

private theorem isSpace_of_isDigit {c : CodePoint} (h : c.isDigit) : c.isSpace = false := by
  rw [Bool.eq_false_iff]
  intro hspace
  have hblank := isBlank_of_isSpace hspace
  rw [isBlank_of_isDigit h] at hblank
  cases hblank

private theorem isDigit_of_decimalValue? {c : CodePoint} (h : c.decimalValue?.isSome) :
    c.isDigit := by
  rw [isDigit, h, Bool.true_or]

private theorem decimalValue?_of_asciiDigit {c : CodePoint} (h : c.asciiDigit?.isSome) :
    c.decimalValue?.isSome := by
  cases c with
  | half k => cases h
  | char c =>
    by_cases hc : c.isDigit
    · rw [decimalValue?_of_isDigit hc]
      rfl
    · simp [asciiDigit?, hc] at h

end CodePoint

/-! ## Blanks at the ends -/

namespace Text

variable {p : CodePoint → Bool}

theorem dropWhile_of_none {t : Text} (h : ∀ c ∈ t, p c = false) : t.dropWhile p = t := by
  cases t with
  | nil => rfl
  | cons c rest => simp [h c List.mem_cons_self]

private theorem trimBoth_of_none {t : Text} (h : ∀ c ∈ t, p c = false) : t.trimBoth p = t := by
  have hreverse : ∀ c ∈ t.reverse, p c = false := fun c hc => h c (List.mem_reverse.mp hc)
  rw [trimBoth, dropWhile_of_none h, dropWhile_of_none hreverse, List.reverse_reverse]

/-- A text with code points of one kind around an inner text. -/
def Padded (p : CodePoint → Bool) (inner t : Text) : Prop :=
  ∃ before after : Text, (∀ c ∈ before, p c) ∧ (∀ c ∈ after, p c) ∧ t = before ++ inner ++ after

theorem padded_trimBoth (p : CodePoint → Bool) (t : Text) : Padded p (t.trimBoth p) t := by
  refine ⟨t.takeWhile p, ((t.dropWhile p).reverse.takeWhile p).reverse,
    fun c hc => List.mem_takeWhile_imp hc,
    fun c hc => List.mem_takeWhile_imp (List.mem_reverse.mp hc), ?_⟩
  rw [List.append_assoc, trimBoth, ← List.reverse_append, List.takeWhile_append_dropWhile,
    List.reverse_reverse, List.takeWhile_append_dropWhile]

theorem Padded.trimBoth {inner t : Text} (h : Padded p inner t) (hne : inner ≠ [])
    (hinner : ∀ c ∈ inner, p c = false) : t.trimBoth p = inner := by
  obtain ⟨before, after, hbefore, hafter, rfl⟩ := h
  have hfront : (before ++ inner ++ after).dropWhile p = inner ++ after := by
    obtain ⟨c, rest, rfl⟩ := List.exists_cons_of_ne_nil hne
    rw [List.append_assoc, List.dropWhile_append_of_pos hbefore, List.cons_append,
      List.dropWhile_cons_of_neg]
    rw [hinner c List.mem_cons_self]
    decide
  have hback : ∀ c ∈ after.reverse, p c := fun c hc => hafter c (List.mem_reverse.mp hc)
  have hkept : ∀ c ∈ inner.reverse, p c = false := fun c hc => hinner c (List.mem_reverse.mp hc)
  rw [Text.trimBoth, hfront, List.reverse_append, List.dropWhile_append_of_pos hback,
    dropWhile_of_none hkept, List.reverse_reverse]

/-- A text of digits of any kind. -/
def OfDigits (t : Text) : Prop := ∀ c ∈ t, c.isDigit

/-- A text of decimal digits, of whatever script. -/
def OfDecimals (t : Text) : Prop := ∀ c ∈ t, c.decimalValue?.isSome

theorem OfDecimals.ofDigits {t : Text} (h : t.OfDecimals) : t.OfDigits :=
  fun c hc => CodePoint.isDigit_of_decimalValue? (h c hc)

private theorem IsDigits.ofDecimals {t : Text} (h : t.IsDigits) : t.OfDecimals :=
  fun c hc => CodePoint.decimalValue?_of_asciiDigit (h c hc)

end Text

/-! ## Numerals -/

namespace Numeral

open Text

private theorem dropMarker_ten (t : Text) : dropMarker 10 t = t := by
  fun_cases dropMarker 10 t <;> simp_all [marker?]

private theorem underscoresApart_of_ofDigits {t : Text} (h : t.OfDigits) :
    underscoresApart t = true := by
  fun_induction underscoresApart t with
  | case1 => rfl
  | case2 => cases h (.char '_') List.mem_cons_self
  | case3 => rfl
  | case4 => cases h (.char '_') (List.mem_cons_of_mem _ List.mem_cons_self)
  | case5 => cases h (.char '_') (List.mem_cons_of_mem _ List.mem_cons_self)
  | case6 c rest _ _ _ _ ih => exact ih fun d hd => h d (List.mem_cons_of_mem _ hd)

/-- Hexadecimal digits that are no decimal digits are no digits at all in any other sense. -/
theorem digit?_of_isDigit {c : CodePoint} (h : c.isDigit) : digit? 10 c = c.decimalValue? := by
  cases hc : c.decimalValue? with
  | some d => simp [digit?, hc, CodePoint.decimalValue?_lt hc]
  | none =>
    have hother : c.InRanges CodePoint.otherDigitRanges := by
      rw [CodePoint.isDigit, hc, Option.isSome_none, Bool.false_or, List.any_eq_true] at h
      simpa [CodePoint.InRanges] using h
    have hletters : ¬ c.InRanges [(0x30, 0x39), (0x41, 0x46), (0x61, 0x66)] :=
      hother.not_of_apart (by decide)
    have hhex : c.hexValue? = none := by
      simp only [CodePoint.InRanges, List.exists_mem_cons_iff, List.not_mem_nil, false_and,
        exists_false, or_false, not_or] at hletters
      simp only [CodePoint.hexValue?, hletters, if_false]
    simp [digit?, hc, hhex]

private theorem value_of_ofDecimals {t : Text} (h : t.OfDecimals) :
    value 10 t = Binary64.digitsValue t := by
  rw [value, Binary64.digitsValue,
    List.filterMap_congr fun c hc => digit?_of_isDigit (h.ofDigits c hc)]

theorem readDigits_of_ofDecimals (shown : Text) {t : Text} (h : t.OfDecimals) (hne : t ≠ []) :
    readDigits 10 shown t = if maxDigits < t.length then .error (.tooLong t.length)
      else .ok (Binary64.digitsValue t) := by
  have hrun : (t.takeWhile fun c => (digit? 10 c).isSome || c = '_') = t := by
    rw [List.takeWhile_eq_self_iff]
    intro c hc
    rw [digit?_of_isDigit (h.ofDigits c hc), h c hc, Bool.true_or]
  have hcount : t.filter (· ≠ .char '_') = t := by
    apply List.filter_eq_self.mpr
    intro c hc
    rw [decide_eq_true_eq]
    rintro rfl
    cases h _ hc
  rw [readDigits]
  simp only [hrun, hcount, underscoresApart_of_ofDigits h.ofDigits, value_of_ofDecimals h]
  simp [hne]

theorem readDigits_of_not_ofDecimals (shown : Text) {t : Text} (h : ¬ t.OfDecimals)
    (hdigits : t.OfDigits) : ∃ fault, readDigits 10 shown t = .error fault := by
  have hrun : (t.takeWhile fun c => (digit? 10 c).isSome || c = '_').length < t.length := by
    refine Nat.lt_of_le_of_ne (List.takeWhile_prefix _).length_le fun hlength => h ?_
    have hall := (List.takeWhile_prefix _).eq_of_length hlength
    rw [List.takeWhile_eq_self_iff] at hall
    intro c hc
    have hdigit := hall c hc
    rw [digit?_of_isDigit (hdigits c hc), Bool.or_eq_true, decide_eq_true_eq] at hdigit
    refine hdigit.resolve_right ?_
    rintro rfl
    cases hdigits _ hc
  rw [readDigits]
  simp only [hrun, or_true, if_true]
  split
  · exact ⟨_, rfl⟩
  · split
    · exact ⟨_, rfl⟩
    · exact ⟨_, rfl⟩

theorem read_of_ofDigits {t : Text} (h : t.OfDigits) :
    Numeral.read 10 t = (readDigits 10 t.quoted t).map Int.ofNat := by
  have htrim : t.trimBoth CodePoint.isSpace = t :=
    trimBoth_of_none fun c hc => CodePoint.isSpace_of_isDigit (h c hc)
  rw [Numeral.read, readShown, htrim]
  split
  · rename_i rest
    cases h _ List.mem_cons_self
  · rename_i rest
    cases h _ List.mem_cons_self
  · rw [dropMarker_ten]
    cases readDigits 10 t.quoted t <;> rfl

theorem read_ofNat (n : Nat) : Numeral.read 10 (ofNat n) =
    if maxDigits < Binary64.digitCount n then .error (.tooLong (Binary64.digitCount n))
      else .ok n := by
  have hdigits := (isDigits_ofNat n).ofDecimals
  rw [read_of_ofDigits hdigits.ofDigits, readDigits_of_ofDecimals _ hdigits (ofNat_ne_nil n),
    length_ofNat, Binary64.digitsValue_ofNat]
  split <;> rfl

/-- Of the texts of digits, those are read of which all are decimal and that are not too long. -/
theorem read_eq_ok_iff {t : Text} (h : t.OfDigits) (hne : t ≠ []) (n : Int) :
    Numeral.read 10 t = .ok n ↔
      t.OfDecimals ∧ t.length ≤ maxDigits ∧ (Binary64.digitsValue t : Int) = n := by
  rw [read_of_ofDigits h]
  by_cases hdecimals : t.OfDecimals
  · rw [readDigits_of_ofDecimals _ hdecimals hne]
    by_cases hlong : maxDigits < t.length
    · simp [hlong, Except.map, Nat.not_le.mpr hlong]
    · simp [hlong, Except.map, Nat.not_lt.mp hlong, hdecimals]
  · obtain ⟨fault, hfault⟩ := readDigits_of_not_ofDecimals t.quoted hdecimals h
    simp [hfault, Except.map, hdecimals]

end Numeral

end ConversionCoverage
