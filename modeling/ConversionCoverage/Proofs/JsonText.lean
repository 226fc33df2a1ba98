import ConversionCoverage.Json.Printer
import ConversionCoverage.Json.Reader
import ConversionCoverage.Proofs.SurrogatePairs

/-!
# Texts in JSON

Escaped texts are read as they were, whatever they hold. Where halves of surrogate pairs are escaped
too, those that stand as a pair are read as the character that they spell.
-/

namespace ConversionCoverage.Json

/-- A code point has a short escape, or the escape of a control character, or it stands for itself
unless only ASCII is written. -/
theorem escapePoint_cases (ascii : Bool) (c : CodePoint) :
    (∃ letter e, c = .char e ∧ escapePoint ascii c = [.char '\\', letter] ∧ letter ≠ 'u' ∧
      simpleEscape? letter = some e) ∨
    (c.toNat < 0x20 ∧ escapePoint ascii c = unicodeEscape c.toNat) ∨
    (c ≠ '"' ∧ c ≠ '\\' ∧ ¬ c.toNat < 0x20 ∧ escapePoint ascii c =
      if ascii && 0x7F ≤ c.toNat then fullEscape c.toNat else [c]) := by
  generalize hescape : escapePoint ascii c = escape
  unfold escapePoint at hescape
  split at hescape
  · exact .inl ⟨'"', '"', ‹_›, hescape.symm, by decide, rfl⟩
  split at hescape
  · exact .inl ⟨'\\', '\\', ‹_›, hescape.symm, by decide, rfl⟩
  split at hescape
  · exact .inl ⟨'n', '\n', ‹_›, hescape.symm, by decide, rfl⟩
  split at hescape
  · exact .inl ⟨'r', '\r', ‹_›, hescape.symm, by decide, rfl⟩
  split at hescape
  · exact .inl ⟨'t', '\t', ‹_›, hescape.symm, by decide, rfl⟩
  split at hescape
  · exact .inl ⟨'f', '\x0c', ‹_›, hescape.symm, by decide, rfl⟩
  split at hescape
  · exact .inl ⟨'b', '\x08', ‹_›, hescape.symm, by decide, rfl⟩
  split at hescape
  · exact .inr (.inl ⟨‹_›, hescape.symm⟩)
  · rename_i hquote hslash _ _ _ _ _ hc
    exact .inr (.inr ⟨hquote, hslash, hc, hescape.symm⟩)

theorem hexValue?_hexDigit : ∀ d, d < 16 → (Text.hexDigit d).hexValue? = some d := by
  decide

/-- The half that an escape has brought in and that waits for its second half. -/
def waiting (high? : Option (Fin 2048)) : Text := (high?.map CodePoint.half).toList

theorem readQuoted_hexDigit (start place rest : Text) (high? : Option (Fin 2048))
    (left value d : Nat) (hd : d < 16) :
    readQuoted start high? (some (.digits place (left + 2) value)) (Text.hexDigit d :: rest) =
      readQuoted start high? (some (.digits place (left + 1) (value * 16 + d))) rest := by
  have hleft : 1 < left + 2 := by omega
  rw [readQuoted]
  simp only [hexValue?_hexDigit d hd, hleft, if_true,
    show left + 2 - 1 = left + 1 from rfl]

private theorem sub_lt_of_first {n : Nat} (h : 0xD800 ≤ n ∧ n < 0xDC00) : n - 0xD800 < 2048 := by
  omega

/-- A single escape is joined with the half that waits, or it is a first half and waits itself, or
it stands for a code point. -/
theorem readQuoted_escape (start : Text) {rest : Text} (high? : Option (Fin 2048)) {n : Nat}
    (hn : n < 0x10000) (hrest : rest ≠ []) :
    readQuoted start high? none (unicodeEscape n ++ rest) =
      match high?.bind (joinHalves · n) with
      | some pair => do
        let (t, after) ← readQuoted start none none rest
        return (pair :: t, after)
      | none =>
        if h : 0xD800 ≤ n ∧ n < 0xDC00 then do
          let (t, after) ← readQuoted start (some ⟨n - 0xD800, sub_lt_of_first h⟩) none rest
          return (waiting high? ++ t, after)
        else do
          let (t, after) ← readQuoted start none none rest
          return (waiting high? ++ (CodePoint.ofNat? n).toList ++ t, after) := by
  have hslash : (CodePoint.char '\\') ≠ '"' := by decide
  have hhex : unicodeEscape n = [.char '\\', .char 'u', Text.hexDigit (n / 16 / 16 / 16 % 16),
      Text.hexDigit (n / 16 / 16 % 16), Text.hexDigit (n / 16 % 16), Text.hexDigit (n % 16)] := rfl
  have hvalue : (((0 * 16 + n / 16 / 16 / 16 % 16) * 16 + n / 16 / 16 % 16) * 16 +
      n / 16 % 16) * 16 + n % 16 = n := by omega
  have hdigit (k : Nat) : k % 16 < 16 := Nat.mod_lt _ (by decide)
  rw [hhex, List.cons_append, readQuoted]
  simp only [hslash, if_false, if_true]
  rw [List.cons_append, readQuoted]
  simp only [if_true, List.cons_append, List.nil_append]
  rw [readQuoted_hexDigit _ _ _ _ _ _ _ (hdigit _), readQuoted_hexDigit _ _ _ _ _ _ _ (hdigit _),
    readQuoted_hexDigit _ _ _ _ _ _ _ (hdigit _), readQuoted]
  simp only [hexValue?_hexDigit _ (hdigit _), hvalue, Nat.lt_irrefl, if_false, hrest]
  rfl

theorem ofNat?_toNat (c : CodePoint) : CodePoint.ofNat? c.toNat = some c := by
  cases c with
  | char c =>
    have hvalid : c.toNat.isValidChar := c.valid
    rw [CodePoint.ofNat?, CodePoint.toNat, dif_pos hvalid]
    rfl
  | half k =>
    have hinvalid : ¬ (0xD800 + k.val).isValidChar := by
      simp only [Nat.isValidChar]
      omega
    have hhalf : 0xD800 ≤ 0xD800 + k.val ∧ 0xD800 + k.val < 0xE000 := by omega
    rw [CodePoint.ofNat?, CodePoint.toNat, dif_neg hinvalid, dif_pos hhalf]
    simp

/-- The halves that the reader joins are those that spell a character. -/
theorem joinHalves_eq {k : Fin 2048} (hk : (CodePoint.half k).IsFirstHalf) (c : CodePoint) :
    joinHalves k c.toNat = CodePoint.pair? (.half k) c := by
  have hvalue : (CodePoint.half k).toNat - 0xD800 = k.val := by
    simp only [CodePoint.toNat]
    omega
  simp only [joinHalves, CodePoint.pair?, hk, true_and, hvalue, CodePoint.IsSecondHalf]

section Continued

variable {start rest t after : Text} (h : readQuoted start none none rest = .ok (t, after))
  (high? : Option (Fin 2048))
include h

theorem readQuoted_plain (c : CodePoint) (hquote : c ≠ '"') (hslash : c ≠ '\\')
    (hc : ¬ c.toNat < 0x20) :
    readQuoted start high? none (c :: rest) = .ok (waiting high? ++ c :: t, after) := by
  rw [readQuoted]
  simp only [hquote, hslash, hc, if_false, h]
  rfl

theorem readQuoted_simpleEscape (c : CodePoint) (e : Char) (hu : c ≠ 'u')
    (hc : simpleEscape? c = some e) :
    readQuoted start high? none (.char '\\' :: c :: rest) =
      .ok (waiting high? ++ .char e :: t, after) := by
  have hslash : (CodePoint.char '\\') ≠ '"' := by decide
  rw [readQuoted]
  simp only [hslash, if_false, if_true]
  rw [readQuoted]
  simp only [hu, if_false, hc, h]
  rfl

theorem readQuoted_unicodeEscape {c : CodePoint} (hc : c.toNat < 0x10000)
    (hfirst : ¬ c.IsFirstHalf) (hjoin : high?.bind (joinHalves · c.toNat) = none)
    (hrest : rest ≠ []) :
    readQuoted start high? none (unicodeEscape c.toNat ++ rest) =
      .ok (waiting high? ++ c :: t, after) := by
  have hrange : ¬ (0xD800 ≤ c.toNat ∧ c.toNat < 0xDC00) := hfirst
  rw [readQuoted_escape start high? hc hrest]
  simp only [hjoin, dif_neg hrange, ofNat?_toNat, h]
  show Except.ok (waiting high? ++ [c] ++ t, after) = _
  rw [List.append_assoc, List.singleton_append]

theorem readQuoted_secondHalf {k : Fin 2048} {n : Nat} {pair : CodePoint} (hn : n < 0x10000)
    (hjoin : joinHalves k n = some pair) (hrest : rest ≠ []) :
    readQuoted start (some k) none (unicodeEscape n ++ rest) = .ok (pair :: t, after) := by
  rw [readQuoted_escape start (some k) hn hrest]
  simp only [Option.bind_some, hjoin, h]
  rfl

private theorem readQuoted_escapePoint (c : CodePoint) (hrest : rest ≠ []) :
    readQuoted start none none (escapePoint false c ++ rest) = .ok (c :: t, after) := by
  rcases escapePoint_cases false c with
    ⟨letter, e, rfl, hescape, hu, he⟩ | ⟨hc, hescape⟩ | ⟨hquote, hslash, hc, hescape⟩
  · rw [hescape]
    exact readQuoted_simpleEscape h none letter e hu he
  · have hfirst : ¬ c.IsFirstHalf := fun hfirst => by
      have hlow := hfirst.1
      omega
    rw [hescape]
    exact readQuoted_unicodeEscape h none (by omega) hfirst rfl hrest
  · rw [hescape]
    exact readQuoted_plain h none c hquote hslash hc

end Continued

private theorem readQuoted_flatMap (start t rest : Text) :
    readQuoted start none none (t.flatMap (escapePoint false) ++ .char '"' :: rest) =
      .ok (t, rest) := by
  induction t with
  | nil => rfl
  | cons c t ih =>
    rw [List.flatMap_cons, List.append_assoc]
    exact readQuoted_escapePoint ih c (by simp)

/-! ## ASCII -/

theorem readQuoted_firstHalf {start rest t after : Text} (high? : Option (Fin 2048))
    {k : Fin 2048} (hk : (CodePoint.half k).IsFirstHalf) (hrest : rest ≠ [])
    (h : readQuoted start (some k) none rest = .ok (t, after)) :
    readQuoted start high? none (unicodeEscape (0xD800 + k.val) ++ rest) =
      .ok (waiting high? ++ t, after) := by
  have hrange : 0xD800 ≤ 0xD800 + k.val ∧ 0xD800 + k.val < 0xDC00 := hk
  have hjoin : high?.bind (joinHalves · (0xD800 + k.val)) = none := by
    cases high? with
    | none => rfl
    | some j =>
      refine if_neg ?_
      omega
  have hhalf : (⟨0xD800 + k.val - 0xD800, by omega⟩ : Fin 2048) = k :=
    Fin.ext (Nat.add_sub_cancel_left _ _)
  rw [readQuoted_escape start high? (by omega) hrest]
  simp only [hjoin, dif_pos hrange, hhalf, h]
  rfl

theorem readQuoted_bothHalves {start rest t after : Text} (high? : Option (Fin 2048))
    {c : CodePoint} (hc : ¬ c.toNat < 0x10000) (hrest : rest ≠ [])
    (h : readQuoted start none none rest = .ok (t, after)) :
    readQuoted start high? none (fullEscape c.toNat ++ rest) =
      .ok (waiting high? ++ c :: t, after) := by
  have hlast : c.toNat < 0x110000 := by
    cases c with
    | char c =>
      have hrange := CodePoint.char_range c
      omega
    | half k =>
      simp only [CodePoint.toNat]
      omega
  obtain ⟨k, hk⟩ : ∃ k : Fin 2048, k.val = (c.toNat - 0x10000) / 0x400 := ⟨⟨_, by omega⟩, rfl⟩
  have hfirst : (CodePoint.half k).IsFirstHalf := by
    simp only [CodePoint.IsFirstHalf, CodePoint.toNat]
    omega
  have hjoin : joinHalves k (0xDC00 + (c.toNat - 0x10000) % 0x400) = some c := by
    have hrange : 0xDC00 ≤ 0xDC00 + (c.toNat - 0x10000) % 0x400 ∧
        0xDC00 + (c.toNat - 0x10000) % 0x400 < 0xE000 := by omega
    have hvalue : 0x10000 + k.val * 0x400 +
        (0xDC00 + (c.toNat - 0x10000) % 0x400 - 0xDC00) = c.toNat := by omega
    rw [joinHalves, if_pos hrange, hvalue, ofNat?_toNat]
  have hsecond := readQuoted_secondHalf h (by omega) hjoin hrest
  rw [fullEscape, if_neg hc, List.append_assoc, ← hk]
  exact readQuoted_firstHalf high? hfirst (by simp [unicodeEscape, Text.ofString]) hsecond

/-- The rest of a string is read, with the pairs of halves in it joined, also if a first half waits
before it. -/
def ReadsOn (start rest t after : Text) : Prop :=
  ∀ high? : Option (Fin 2048), (∀ k ∈ high?, (CodePoint.half k).IsFirstHalf) →
    readQuoted start high? none rest = .ok (Text.joined (waiting high? ++ t), after)

/-- A half that waits stays as it is before what it spells no character with. -/
theorem joined_waiting {high? : Option (Fin 2048)} {c : CodePoint}
    (h : ∀ k ∈ high?, CodePoint.pair? (.half k) c = none) (t : Text) :
    Text.joined (waiting high? ++ c :: t) = waiting high? ++ Text.joined (c :: t) := by
  cases high? with
  | none => rfl
  | some k => exact Text.joined_of_no_pair (h k rfl) t

theorem joined_waiting_of_no_half (high? : Option (Fin 2048)) {c : CodePoint}
    (h : c.toNat < 0xD800 ∨ 0xDFFF < c.toNat) (t : Text) :
    Text.joined (waiting high? ++ c :: t) = waiting high? ++ c :: Text.joined t := by
  rw [joined_waiting fun k _ => CodePoint.pair?_of_not_second _
      (CodePoint.not_isSecondHalf (by omega)),
    Text.joined_cons (CodePoint.not_isFirstHalf h)]

section ReadsOn

variable {start rest t after : Text} (h : ReadsOn start rest t after) (hrest : rest ≠ [])
include h hrest

theorem ReadsOn.unicodeEscape {c : CodePoint} (hc : c.toNat < 0x10000) :
    ReadsOn start (unicodeEscape c.toNat ++ rest) (c :: t) after := by
  intro high? hhigh
  by_cases hfirst : c.IsFirstHalf
  · have hpair (k : Fin 2048) : CodePoint.pair? (.half k) c = none :=
      CodePoint.pair?_of_not_second _ (CodePoint.not_isSecondHalf (.inl hfirst.2))
    rw [joined_waiting fun k _ => hpair k]
    obtain ⟨k, rfl⟩ := hfirst.exists_eq
    exact readQuoted_firstHalf high? hfirst hrest
      (h (some k) fun j hj => Option.some.inj hj ▸ hfirst)
  · have hnone := h none nofun
    cases hjoin : high?.bind fun k => CodePoint.pair? (.half k) c with
    | none =>
      have hpair := Option.bind_eq_none_iff.mp hjoin
      have happart : high?.bind (joinHalves · c.toNat) = none :=
        Option.bind_eq_none_iff.mpr fun k hk =>
          (joinHalves_eq (hhigh k hk) c).trans (hpair k hk)
      rw [joined_waiting hpair, Text.joined_cons hfirst]
      exact readQuoted_unicodeEscape hnone high? hc hfirst happart hrest
    | some pair =>
      obtain ⟨k, rfl, hpair⟩ := Option.bind_eq_some_iff.mp hjoin
      rw [show waiting (some k) ++ c :: t = .half k :: c :: t from rfl, Text.joined_of_pair hpair]
      exact readQuoted_secondHalf hnone hc ((joinHalves_eq (hhigh k rfl) c).trans hpair) hrest

theorem ReadsOn.escapePoint (c : CodePoint) :
    ReadsOn start (escapePoint true c ++ rest) (c :: t) after := by
  have hnone := h none nofun
  rcases escapePoint_cases true c with
    ⟨letter, e, rfl, hescape, hu, he⟩ | ⟨hc, hescape⟩ | ⟨hquote, hslash, hc, hescape⟩
  · intro high? hhigh
    have hrange := CodePoint.char_range e
    rw [hescape, joined_waiting_of_no_half high? (by omega)]
    exact readQuoted_simpleEscape hnone high? letter e hu he
  · rw [hescape]
    exact h.unicodeEscape hrest (by omega)
  · rw [hescape]
    split
    · by_cases hbasic : c.toNat < 0x10000
      · rw [fullEscape, if_pos hbasic]
        exact h.unicodeEscape hrest hbasic
      · intro high? hhigh
        rw [joined_waiting_of_no_half high? (by omega)]
        exact readQuoted_bothHalves high? hbasic hrest hnone
    · rename_i hplain
      simp only [Bool.true_and, decide_eq_true_eq, Nat.not_le] at hplain
      intro high? hhigh
      rw [joined_waiting_of_no_half high? (by omega)]
      exact readQuoted_plain hnone high? c hquote hslash hc

end ReadsOn

/-- Where only ASCII is written, a text is read back with its pairs of halves joined. -/
theorem readsOn_flatMap (start t rest : Text) :
    ReadsOn start (t.flatMap (escapePoint true) ++ .char '"' :: rest) t rest := by
  induction t with
  | nil =>
    intro high? hhigh
    cases high? <;> rfl
  | cons c t ih =>
    rw [List.flatMap_cons, List.append_assoc]
    exact ih.escapePoint (by simp) c

/-- What is read of a text after it has been written, in ASCII or as it is. -/
def readingText (ascii : Bool) (t : Text) : Text := if ascii then t.joined else t

theorem readQuoted_escaped (ascii : Bool) (start t rest : Text) :
    readQuoted start none none (t.flatMap (escapePoint ascii) ++ .char '"' :: rest) =
      .ok (readingText ascii t, rest) := by
  cases ascii with
  | false => exact readQuoted_flatMap start t rest
  | true => exact readsOn_flatMap start t rest none nofun

example : readingText true [.half 0x03D, .half 0x600] = [.char '😀'] := by decide

end ConversionCoverage.Json
