import ConversionCoverage.Text
import Mathlib.Data.List.Chain

/-!
# Surrogate pairs

A first half of a surrogate pair and a second half right after it spell a character. A text in which
no halves stand so is left as it is when pairs are joined.
-/

namespace ConversionCoverage

namespace CodePoint

def IsFirstHalf (c : CodePoint) : Prop := 0xD800 ≤ c.toNat ∧ c.toNat < 0xDC00

def IsSecondHalf (c : CodePoint) : Prop := 0xDC00 ≤ c.toNat ∧ c.toNat < 0xE000

instance (c : CodePoint) : Decidable c.IsFirstHalf :=
  inferInstanceAs (Decidable (0xD800 ≤ c.toNat ∧ c.toNat < 0xDC00))

instance (c : CodePoint) : Decidable c.IsSecondHalf :=
  inferInstanceAs (Decidable (0xDC00 ≤ c.toNat ∧ c.toNat < 0xE000))

/-- The character that two halves of a surrogate pair spell. -/
def pair? (c d : CodePoint) : Option CodePoint :=
  if c.IsFirstHalf ∧ d.IsSecondHalf then
    ofNat? (0x10000 + (c.toNat - 0xD800) * 0x400 + (d.toNat - 0xDC00))
  else none

private theorem pair?_of_not_first {c : CodePoint} (h : ¬ c.IsFirstHalf) (d : CodePoint) :
    pair? c d = none := if_neg fun hboth => h hboth.1

theorem pair?_of_not_second (c : CodePoint) {d : CodePoint} (h : ¬ d.IsSecondHalf) :
    pair? c d = none := if_neg fun hboth => h hboth.2

theorem char_range (c : Char) :
    (char c).toNat < 0xD800 ∨ 0xDFFF < (char c).toNat ∧ (char c).toNat < 0x110000 := c.valid

theorem not_isFirstHalf {c : CodePoint} (h : c.toNat < 0xD800 ∨ 0xDFFF < c.toNat) :
    ¬ c.IsFirstHalf := by
  rintro ⟨hlow, hhigh⟩
  omega

theorem not_isSecondHalf {c : CodePoint} (h : c.toNat < 0xDC00 ∨ 0xDFFF < c.toNat) :
    ¬ c.IsSecondHalf := by
  rintro ⟨hlow, hhigh⟩
  omega

/-- A half of a surrogate pair is a first one or a second one, and not a character. -/
theorem IsFirstHalf.exists_eq {c : CodePoint} (h : c.IsFirstHalf) : ∃ k, c = .half k := by
  cases c with
  | char c =>
    have hrange := char_range c
    exact absurd h (not_isFirstHalf (by omega))
  | half k => exact ⟨k, rfl⟩

end CodePoint

namespace Text

/-- The text with the characters that pairs of halves spell in their place. -/
def joined : Text → Text
  | c :: d :: rest =>
    match CodePoint.pair? c d with
    | some pair => pair :: joined rest
    | none => c :: joined (d :: rest)
  | t => t

/-- No first half of a surrogate pair stands right before a second half. -/
def Unpaired (t : Text) : Prop := t.IsChain fun c d => ¬ (c.IsFirstHalf ∧ d.IsSecondHalf)

instance (t : Text) : Decidable t.Unpaired :=
  inferInstanceAs (Decidable (t.IsChain fun c d => ¬ (c.IsFirstHalf ∧ d.IsSecondHalf)))

theorem joined_of_pair {c d pair : CodePoint} (h : CodePoint.pair? c d = some pair) (t : Text) :
    joined (c :: d :: t) = pair :: joined t := by
  rw [joined, h]

theorem joined_of_no_pair {c d : CodePoint} (h : CodePoint.pair? c d = none) (t : Text) :
    joined (c :: d :: t) = c :: joined (d :: t) := by
  rw [joined, h]

theorem joined_cons {c : CodePoint} (h : ¬ c.IsFirstHalf) (t : Text) :
    joined (c :: t) = c :: joined t := by
  cases t with
  | nil => rfl
  | cons d t => exact joined_of_no_pair (CodePoint.pair?_of_not_first h d) t

theorem Unpaired.joined_eq {t : Text} (h : t.Unpaired) : t.joined = t := by
  induction t with
  | nil => rfl
  | cons c t ih =>
    cases t with
    | nil => rfl
    | cons d t =>
      obtain ⟨hc, hrest⟩ := List.isChain_cons_cons.mp h
      rw [joined_of_no_pair (if_neg hc), ih hrest]

end Text

end ConversionCoverage
