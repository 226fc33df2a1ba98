import ConversionCoverage.Proofs.Halves
import ConversionCoverage.Text.ControlSequence
import Mathlib.Data.List.Infix
import Mathlib.Data.List.TakeWhile

/-!
# Texts without control sequences

Stripping a text of control sequences leaves all else, so that a text stays as it is exactly if it
has none. Since there are no halves of surrogate pairs in a sequence, the text can be encoded
afterwards if and only if it can be encoded before.
-/

namespace ConversionCoverage.ControlSequence

/-- What stands after the escape character of a control sequence. -/
def IsTail (t : Text) : Prop :=
  ∃ (parameters : Text) (final : CodePoint), t = .char '[' :: (parameters ++ [final]) ∧
    (∀ c ∈ parameters, isParameter c) ∧ isFinal final

/-- A text with a control sequence somewhere. -/
def HasSequence (t : Text) : Prop := ∃ tail, IsTail tail ∧ .char '\x1b' :: tail <:+: t

variable {c : CodePoint} {t rest : Text}

private theorem not_isParameter_of_isFinal (h : isFinal c) : isParameter c = false := by
  cases c with
  | half k => rfl
  | char c =>
    have hdigit : c.isDigit = false := by
      rw [Bool.eq_false_iff]
      intro hdigit
      have hletter : (decide (c.val ≥ 65 ∧ c.val ≤ 90) ||
        (decide (c.val ≥ 97) && decide (c.val ≤ 122))) = true := h
      change (decide (c.val ≥ 48) && decide (c.val ≤ 57)) = true at hdigit
      simp only [ge_iff_le, UInt32.le_iff_toNat_le, Bool.or_eq_true, Bool.and_eq_true,
        decide_eq_true_eq] at hletter hdigit
      grind
    have hseparator : (c = ';' || c = '?') = false := by
      rw [Bool.or_eq_false_iff, decide_eq_false_iff_not, decide_eq_false_iff_not]
      constructor
      · rintro rfl
        cases h
      · rintro rfl
        cases h
    simp [isParameter, hdigit, hseparator]

private theorem length?_of_tail {tail : Text} (h : IsTail tail) (rest : Text) :
    length? (tail ++ rest) = some tail.length := by
  obtain ⟨parameters, final, rfl, hparameters, hfinal⟩ := h
  have htake : (parameters ++ (final :: rest)).takeWhile isParameter = parameters := by
    rw [List.takeWhile_append_of_pos hparameters,
      List.takeWhile_cons_of_neg (by simp [not_isParameter_of_isFinal hfinal]), List.append_nil]
  have hshape : (.char '[' :: (parameters ++ [final])) ++ rest =
      .char '[' :: (parameters ++ (final :: rest)) := by simp
  rw [hshape, length?]
  simp [htake, hfinal]

private theorem exists_tail_of_length? {n : Nat} (h : length? rest = some n) :
    ∃ tail, IsTail tail ∧ tail.length = n ∧ tail <+: rest := by
  rw [length?.eq_def] at h
  split at h
  · rename_i inner
    simp only at h
    split at h
    · rename_i hfinal
      obtain rfl := Option.some.inj h
      have hsplit := List.takeWhile_append_dropWhile (p := isParameter) (l := inner)
      generalize hparameters : inner.takeWhile isParameter = parameters at *
      have hdrop : inner.drop parameters.length = inner.dropWhile isParameter := by
        conv_lhs => rw [← hsplit]
        exact List.drop_left
      rw [hdrop] at hfinal
      cases hlast : inner.dropWhile isParameter with
      | nil =>
        rw [hlast] at hfinal
        cases hfinal
      | cons final more =>
        rw [hlast] at hfinal hsplit
        have hall : ∀ c ∈ parameters, isParameter c := by
          rw [← hparameters]
          exact fun c hc => List.mem_takeWhile_imp hc
        refine ⟨_, ⟨parameters, final, rfl, hall, by simpa using hfinal⟩, by simp, more, ?_⟩
        rw [← hsplit]
        simp
    · cases h
  · cases h

private theorem length_stripFrom_le (skip : Nat) (t : Text) :
    (stripFrom skip t).length ≤ t.length - skip := by
  induction t generalizing skip with
  | nil => simp [stripFrom]
  | cons c rest ih =>
    cases skip with
    | succ skip =>
      have hrest := ih skip
      rw [stripFrom, List.length_cons]
      omega
    | zero =>
      rw [stripFrom]
      split
      · rename_i n _
        have hrest := ih n
        rw [List.length_cons]
        omega
      · have hrest := ih 0
        rw [List.length_cons, List.length_cons]
        omega

private theorem not_hasSequence_nil : ¬ HasSequence [] := by
  rintro ⟨tail, -, h⟩
  cases List.eq_nil_of_infix_nil h

private theorem hasSequence_cons_iff :
    HasSequence (c :: rest) ↔
      (∃ tail, IsTail tail ∧ .char '\x1b' :: tail <+: c :: rest) ∨ HasSequence rest := by
  simp only [HasSequence, List.infix_cons_iff]
  constructor
  · rintro ⟨tail, htail, h | h⟩
    · exact .inl ⟨tail, htail, h⟩
    · exact .inr ⟨tail, htail, h⟩
  · rintro (⟨tail, htail, h⟩ | ⟨tail, htail, h⟩)
    · exact ⟨tail, htail, .inl h⟩
    · exact ⟨tail, htail, .inr h⟩

/-- Where a sequence starts something is stripped, and nothing is where none does. -/
private theorem stripFrom_cons (c : CodePoint) (rest : Text) :
    (∃ tail more, IsTail tail ∧ c = .char '\x1b' ∧ rest = tail ++ more ∧
      stripFrom 0 (c :: rest) = stripFrom tail.length rest) ∨
    (¬ ∃ tail, IsTail tail ∧ .char '\x1b' :: tail <+: c :: rest) ∧
      stripFrom 0 (c :: rest) = c :: stripFrom 0 rest := by
  rw [stripFrom]
  split
  · rename_i n hn
    obtain ⟨rfl, hlength⟩ : c = .char '\x1b' ∧ length? rest = some n := by
      by_cases hc : c = '\x1b'
      · rw [if_pos hc] at hn
        exact ⟨hc, hn⟩
      · rw [if_neg hc] at hn
        cases hn
    obtain ⟨tail, htail, rfl, more, rfl⟩ := exists_tail_of_length? hlength
    exact .inl ⟨tail, more, htail, rfl, rfl, rfl⟩
  · rename_i hn
    refine .inr ⟨?_, rfl⟩
    rintro ⟨tail, htail, h⟩
    obtain ⟨hc, more, rfl⟩ := List.cons_prefix_cons.mp h
    rw [if_pos hc.symm, length?_of_tail htail] at hn
    cases hn

theorem strip_eq_self_iff (t : Text) : strip t = t ↔ ¬ HasSequence t := by
  rw [strip]
  induction t with
  | nil => exact iff_of_true rfl not_hasSequence_nil
  | cons c rest ih =>
    rw [hasSequence_cons_iff]
    rcases stripFrom_cons c rest with ⟨tail, more, htail, rfl, rfl, hstrip⟩ | ⟨hnone, hstrip⟩
    · rw [hstrip]
      refine iff_of_false ?_ fun h => h (.inl ⟨tail, htail, more, rfl⟩)
      intro hsame
      have hlength := length_stripFrom_le tail.length (tail ++ more)
      rw [hsame, List.length_cons] at hlength
      omega
    · rw [hstrip, or_iff_right hnone, ← ih]
      simp

private theorem IsTail.not_hasHalf {tail : Text} (h : IsTail tail) : ¬ tail.HasHalf := by
  obtain ⟨parameters, final, rfl, hparameters, hfinal⟩ := h
  rintro ⟨k, hk⟩
  simp only [List.mem_cons, List.mem_append, List.not_mem_nil, or_false] at hk
  rcases hk with hk | hk | hk
  · cases hk
  · cases hparameters _ hk
  · rw [← hk] at hfinal
    cases hfinal

private theorem stripFrom_append (tail more : Text) :
    stripFrom tail.length (tail ++ more) = stripFrom 0 more := by
  induction tail with
  | nil => rfl
  | cons c rest ih => exact ih

theorem hasHalf_strip (t : Text) : (strip t).HasHalf ↔ t.HasHalf := by
  rw [strip]
  induction hn : t.length using Nat.strong_induction_on generalizing t with
  | _ n ih =>
    subst hn
    cases t with
    | nil => rfl
    | cons c rest =>
      rcases stripFrom_cons c rest with ⟨tail, more, htail, rfl, rfl, hstrip⟩ | ⟨-, hstrip⟩
      · have hshorter (c : CodePoint) : more.length < (c :: (tail ++ more)).length := by
          simp only [List.length_cons, List.length_append]
          omega
        have hmore := ih more.length (hshorter _) more rfl
        rw [hstrip, stripFrom_append, hmore, Text.hasHalf_char_cons, Text.hasHalf_append,
          or_iff_right htail.not_hasHalf]
      · have hrest := ih rest.length (by simp) rest rfl
        rw [hstrip]
        cases c with
        | char c => rw [Text.hasHalf_char_cons, Text.hasHalf_char_cons, hrest]
        | half k => exact iff_of_true (Text.hasHalf_half_cons k _) (Text.hasHalf_half_cons k _)

end ConversionCoverage.ControlSequence
