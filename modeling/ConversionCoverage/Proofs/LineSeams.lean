import ConversionCoverage.Json.Reader
import ConversionCoverage.Validation
import Mathlib.Data.List.TakeDrop

/-!
# Lines that do not fit together

Where one line of a text ends in a value and the next one begins with a quote, the text is no
document. For inside a text there are no line breaks, and behind a value the quote is out of place.
-/

namespace ConversionCoverage.Json

/-- The characters that separate and enclose values or stand between them. -/
def outerChars : List Char :=
  [' ', '\t', '\n', '\r', '"', '\\', ',', ':', '[', ']', '\x7b', '\x7d']

/-- A code point that belongs to a value, if it is not inside a text. -/
def Inner (c : CodePoint) : Prop := c ∉ outerChars.map CodePoint.char

instance (c : CodePoint) : Decidable (Inner c) := inferInstanceAs (Decidable (_ ∉ _))

/-- The end of a line and the next line. -/
def seam (d : CodePoint) (next : Text) : Text := d :: .char '\n' :: next

/-- A text that ends with a seam, or one that starts behind its first code point. -/
def AtSeam (d : CodePoint) (next t : Text) : Prop := seam d next <:+ t ∨ t = .char '\n' :: next

variable {d : CodePoint} {next : Text}

theorem suffix_of_cons {c : CodePoint} {t : Text} (h : seam d next <:+ c :: t) (hc : c ≠ d) :
    seam d next <:+ t := by
  rcases List.suffix_cons_iff.mp h with heq | h
  · exact absurd (List.cons.inj heq).1.symm hc
  · exact h

theorem AtSeam.tail {c : CodePoint} {t : Text} (h : AtSeam d next (c :: t)) (hc : c ≠ '\n') :
    AtSeam d next t := by
  rcases h with h | h
  · rcases List.suffix_cons_iff.mp h with heq | h
    · exact .inr (List.cons.inj heq).2.symm
    · exact .inl h
  · exact absurd (List.cons.inj h).1 hc

theorem AtSeam.dropWhile {t : Text} {p : CodePoint → Bool} (h : AtSeam d next t)
    (hp : p '\n' = false) : AtSeam d next (t.dropWhile p) := by
  induction t with
  | nil => exact h
  | cons c t ih =>
    by_cases hc : p c = true
    · have hne : c ≠ '\n' := by
        rintro rfl
        exact Bool.false_ne_true (hp.symm.trans hc)
      rw [List.dropWhile_cons_of_pos hc]
      exact ih (h.tail hne)
    · rw [List.dropWhile_cons_of_neg hc]
      exact h

theorem AtSeam.dropWord {word t rest : Text} (h : AtSeam d next t) (hword : .char '\n' ∉ word)
    (hdrop : dropWord? word t = some rest) : AtSeam d next rest := by
  induction word generalizing t with
  | nil =>
    cases hdrop
    exact h
  | cons c word ih =>
    cases t with
    | nil => cases hdrop
    | cons e t =>
      rw [List.mem_cons, not_or] at hword
      by_cases hce : c = e
      · subst hce
        have hrest : dropWord? word t = some rest := by
          simpa [dropWord?, List.isPrefixOf] using hdrop
        exact ih (h.tail (Ne.symm hword.1)) hword.2 hrest
      · simp [dropWord?, List.isPrefixOf, hce] at hdrop

theorem suffix_skipBlanks {t : Text} (h : seam d next <:+ t) (hd : isBlank d = false) :
    seam d next <:+ skipBlanks t := by
  induction t with
  | nil => exact h
  | cons c t ih =>
    rw [skipBlanks]
    by_cases hc : isBlank c = true
    · have hne : c ≠ d := by
        rintro rfl
        exact Bool.false_ne_true (hd.symm.trans hc)
      rw [List.dropWhile_cons_of_pos hc]
      exact ih (suffix_of_cons h hne)
    · rw [List.dropWhile_cons_of_neg hc]
      exact h

/-! ## Texts -/

private theorem readQuoted_newline (start : Text) (high? : Option (Fin 2048))
    (escape? : Option Escape)
    (t : Text) : ∃ stop, readQuoted start high? escape? (.char '\n' :: t) = .error stop := by
  cases escape? with
  | none =>
    rw [readQuoted]
    exact ⟨_, rfl⟩
  | some escape =>
    cases escape with
    | backslash =>
      rw [readQuoted]
      exact ⟨_, rfl⟩
    | digits place left value =>
      rw [readQuoted]
      exact ⟨_, rfl⟩

theorem suffix_of_bind {S s rest : Text} {x : Except Stop (Text × Text)}
    {f : Text × Text → Except Stop (Text × Text)} (hx : ∀ t after, x = .ok (t, after) → S <:+ after)
    (hf : ∀ result, ∃ t, f result = .ok (t, result.2)) (h : (x >>= f) = .ok (s, rest)) :
    S <:+ rest := by
  obtain ⟨result, hok, hresult⟩ := Checked.bind_eq_ok_iff.mp h
  obtain ⟨t, ht⟩ := hf result
  obtain ⟨rfl, rfl⟩ := Prod.mk.inj (Except.ok.inj (ht.symm.trans hresult))
  exact hx _ _ hok

theorem readQuoted_seam {start t s rest : Text} {high? : Option (Fin 2048)}
    {escape? : Option Escape} (hd : Inner d) (h : seam d next <:+ t)
    (hread : readQuoted start high? escape? t = .ok (s, rest)) : seam d next <:+ rest := by
  induction t generalizing high? escape? s rest with
  | nil => simp [seam] at h
  | cons c t ih =>
    have hmore : ∀ high? escape? s rest, readQuoted start high? escape? t = .ok (s, rest) →
        seam d next <:+ rest := by
      intro high? escape? s rest hread
      rcases List.suffix_cons_iff.mp h with heq | h
      · obtain ⟨stop, hstop⟩ := readQuoted_newline start high? escape? next
        rw [← (List.cons.inj heq).2, hstop] at hread
        cases hread
      · exact ih h hread
    cases escape? with
    | none =>
      rw [readQuoted] at hread
      split at hread
      · rename_i hquote
        cases hread
        apply suffix_of_cons h
        rintro rfl
        rw [hquote] at hd
        exact absurd hd (by decide)
      split at hread
      · exact hmore _ _ _ _ hread
      split at hread
      · cases hread
      · exact suffix_of_bind (hmore _ _) (fun _ => ⟨_, rfl⟩) hread
    | some escape =>
      cases escape with
      | backslash =>
        rw [readQuoted] at hread
        split at hread
        · exact hmore _ _ _ _ hread
        split at hread
        · cases hread
        · exact suffix_of_bind (hmore _ _) (fun _ => ⟨_, rfl⟩) hread
      | digits place left value =>
        rw [readQuoted] at hread
        split at hread
        · cases hread
        simp only at hread
        split at hread
        · exact hmore _ _ _ _ hread
        split at hread
        · cases hread
        split at hread
        · exact suffix_of_bind (hmore _ _) (fun _ => ⟨_, rfl⟩) hread
        split at hread
        · exact suffix_of_bind (hmore _ _) (fun _ => ⟨_, rfl⟩) hread
        · exact suffix_of_bind (hmore _ _) (fun _ => ⟨_, rfl⟩) hread

/-! ## Words and numbers -/

theorem AtSeam.spanDigits {t : Text} (h : AtSeam d next t) : AtSeam d next (spanDigits t).2 := by
  rw [Json.spanDigits, List.span_eq_takeWhile_dropWhile]
  exact h.dropWhile rfl

theorem AtSeam.spanWhole {t : Text} (h : AtSeam d next t) : AtSeam d next (spanWhole t).2 := by
  unfold Json.spanWhole
  split
  · exact h.tail (by decide)
  · exact h.spanDigits

theorem AtSeam.spanFraction {t : Text} (h : AtSeam d next t) :
    AtSeam d next (spanFraction t).2 := by
  unfold Json.spanFraction
  split
  · rename_i rest
    have hrest : AtSeam d next rest := h.tail (by decide)
    simp only
    split
    · exact h
    · exact hrest.spanDigits
  · exact h

theorem AtSeam.spanExponent {t : Text} (h : AtSeam d next t) :
    AtSeam d next (spanExponent t).2 := by
  unfold Json.spanExponent
  split
  · rename_i c rest
    split
    · rename_i hletter
      have hrest : AtSeam d next rest := by
        apply h.tail
        rintro ⟨⟩
        exact absurd hletter (by decide)
      have hdigits {exponent? : Option Int} {u : Text} (hu : AtSeam d next u) :
          AtSeam d next (if (Json.spanDigits u).1 = [] then (none, CodePoint.char c :: rest)
            else (exponent?, (Json.spanDigits u).2)).2 := by
        split
        · exact h
        · exact hu.spanDigits
      simp only
      split
      · exact hdigits (hrest.tail (by decide))
      · exact hdigits (hrest.tail (by decide))
      · exact hdigits hrest
    · exact h
  · exact h

variable {maxDigits : Nat}

theorem readUnsigned_seam {place t rest : Text} {negative : Bool} {j : Json} (h : AtSeam d next t)
    (hread : readUnsigned maxDigits place negative t = .ok (j, rest)) : AtSeam d next rest := by
  have hrest : AtSeam d next (spanExponent (spanFraction (spanWhole t).2).2).2 :=
    h.spanWhole.spanFraction.spanExponent
  unfold readUnsigned at hread
  simp only at hread
  split at hread
  · cases hread
  split at hread
  · split at hread
    · cases hread
    · cases hread
      exact hrest
  · cases hread
    exact hrest

theorem eq_some_of_orElse {α : Type} {x y : Option α} {a : α} (h : (x <|> y) = some a) :
    x = some a ∨ y = some a := by
  cases x with
  | none => exact .inr h
  | some _ => exact .inl h

private theorem readPlain_seam {t rest : Text} {j : Json} (h : AtSeam d next t)
    (hread : readPlain maxDigits t = .ok (j, rest)) : AtSeam d next rest := by
  have hword {word : String} {value : Json} {result : Json × Text} (hnewline : '\n' ∉ word.toList)
      (hfound : (dropWord? word t).map (fun rest => (value, rest)) = some result) :
      AtSeam d next result.2 := by
    obtain ⟨after, hdrop, rfl⟩ := Option.map_eq_some_iff.mp hfound
    apply h.dropWord _ hdrop
    simpa [Text.ofString] using hnewline
  unfold readPlain at hread
  simp only at hread
  split at hread
  · rename_i result hfound
    cases hread
    rcases eq_some_of_orElse hfound with h | hfound
    · exact hword (by decide) h
    rcases eq_some_of_orElse hfound with h | hfound
    · exact hword (by decide) h
    rcases eq_some_of_orElse hfound with h | hfound
    · exact hword (by decide) h
    rcases eq_some_of_orElse hfound with h | hfound
    · exact hword (by decide) h
    rcases eq_some_of_orElse hfound with h | h
    · exact hword (by decide) h
    · exact hword (by decide) h
  · split at hread
    · exact readUnsigned_seam (h.tail (by decide)) hread
    · exact readUnsigned_seam h hread

/-! ## Values -/

/-- What is read from a text before a seam ends before the seam, or behind its first code point if a
value ends there. -/
structure EndsBefore (d : CodePoint) (next : Text) (maxDigits fuel : Nat) : Prop where
  value : ∀ {depth t j rest}, seam d next <:+ t → readValue maxDigits fuel depth t = .ok (j, rest) →
    AtSeam d next rest
  items : ∀ {depth t items rest}, seam d next <:+ t →
    readItems maxDigits fuel depth t = .ok (items, rest) → seam d next <:+ rest
  members : ∀ {depth t members rest}, seam d next <:+ t →
    readMembers maxDigits fuel depth t = .ok (members, rest) → seam d next <:+ rest

section Seam

variable (hd : Inner d) (hnext : ∃ post, skipBlanks next = .char '"' :: post)
include hd

theorem Inner.ne {c : CodePoint} (hc : ¬ Inner c) : c ≠ d := by
  rintro rfl
  exact hc hd

theorem Inner.not_blank : isBlank d = false := by
  have hne (c : Char) (hc : ¬ Inner c) : d ≠ c := (hd.ne hc).symm
  simp [isBlank, hne ' ' (by decide), hne '\t' (by decide), hne '\n' (by decide),
    hne '\r' (by decide)]

theorem Inner.suffix_tail {c : CodePoint} {t : Text} (hc : ¬ Inner c)
    (h : seam d next <:+ c :: t) : seam d next <:+ t :=
  suffix_of_cons h (hd.ne hc)

theorem Inner.suffix_next {c : CodePoint} {t : Text} (hc : ¬ Inner c)
    (h : seam d next <:+ c :: t) : seam d next <:+ Json.skipBlanks t :=
  suffix_skipBlanks (hd.suffix_tail hc h) hd.not_blank

include hnext

/-- Behind a value at the seam stands a quote, and before the seam stands all of it. -/
theorem AtSeam.skipBlanks {t : Text} (h : AtSeam d next t) :
    seam d next <:+ Json.skipBlanks t ∨ ∃ post, Json.skipBlanks t = .char '"' :: post := by
  rcases h with h | rfl
  · exact .inl (suffix_skipBlanks h hd.not_blank)
  · exact .inr hnext

omit hnext in
private theorem readValue_seam {fuel depth : Nat} {t rest : Text} {j : Json}
    (hfuel : EndsBefore d next maxDigits fuel) (h : seam d next <:+ t)
    (hread : readValue maxDigits (fuel + 1) depth t = .ok (j, rest)) : AtSeam d next rest := by
  unfold readValue at hread
  split at hread
  · rename_i u
    obtain ⟨⟨s, after⟩, hquoted, hdone⟩ := Checked.bind_eq_ok_iff.mp hread
    cases hdone
    exact .inl (readQuoted_seam hd (hd.suffix_tail (by decide) h) hquoted)
  · rename_i u
    have hu := hd.suffix_next (by decide) h
    split at hread
    · cases hread
    · split at hread
      · rename_i after hempty
        rw [hempty] at hu
        cases hread
        exact .inl (hd.suffix_tail (by decide) hu)
      · obtain ⟨⟨items, after⟩, hitems, hdone⟩ := Checked.bind_eq_ok_iff.mp hread
        cases hdone
        exact .inl (hfuel.items hu hitems)
  · rename_i u
    have hu := hd.suffix_next (by decide) h
    split at hread
    · cases hread
    · split at hread
      · rename_i after hempty
        rw [hempty] at hu
        cases hread
        exact .inl (hd.suffix_tail (by decide) hu)
      · obtain ⟨⟨members, after⟩, hmembers, hdone⟩ := Checked.bind_eq_ok_iff.mp hread
        cases hdone
        exact .inl (hfuel.members hu hmembers)
  · exact readPlain_seam (.inl h) hread

private theorem readItems_seam {fuel depth : Nat} {t rest : Text} {items : List Json}
    (hfuel : EndsBefore d next maxDigits fuel) (h : seam d next <:+ t)
    (hread : readItems maxDigits (fuel + 1) depth t = .ok (items, rest)) :
    seam d next <:+ rest := by
  rw [readItems] at hread
  obtain ⟨⟨item, after⟩, hvalue, hread⟩ := Checked.bind_eq_ok_iff.mp hread
  simp only at hread
  rcases (hfuel.value h hvalue).skipBlanks hd hnext with hafter | ⟨post, hpost⟩
  · split at hread
    · rename_i hskip
      rw [hskip] at hafter
      cases hread
      exact hd.suffix_tail (by decide) hafter
    · rename_i u hskip
      rw [hskip] at hafter
      obtain ⟨⟨more, last⟩, hitems, hdone⟩ := Checked.bind_eq_ok_iff.mp hread
      cases hdone
      exact hfuel.items (hd.suffix_next (by decide) hafter) hitems
    · cases hread
  · rw [hpost] at hread
    cases hread

private theorem readMembers_seam {fuel depth : Nat} {t rest : Text} {members : List (Text × Json)}
    (hfuel : EndsBefore d next maxDigits fuel) (h : seam d next <:+ t)
    (hread : readMembers maxDigits (fuel + 1) depth t = .ok (members, rest)) :
    seam d next <:+ rest := by
  unfold readMembers at hread
  split at hread
  · rename_i u
    obtain ⟨⟨name, afterName⟩, hquoted, hread⟩ := Checked.bind_eq_ok_iff.mp hread
    have hname := readQuoted_seam hd (hd.suffix_tail (by decide) h) hquoted
    have hcolon := suffix_skipBlanks hname hd.not_blank
    simp only at hread
    split at hread
    · rename_i v hskip
      rw [hskip] at hcolon
      obtain ⟨⟨value, afterValue⟩, hvalue, hread⟩ := Checked.bind_eq_ok_iff.mp hread
      have hend := hfuel.value (hd.suffix_next (by decide) hcolon) hvalue
      simp only at hread
      rcases hend.skipBlanks hd hnext with hend | ⟨post, hpost⟩
      · split at hread
        · rename_i hskip
          rw [hskip] at hend
          cases hread
          exact hd.suffix_tail (by decide) hend
        · rename_i x hskip
          rw [hskip] at hend
          obtain ⟨⟨more, last⟩, hmembers, hdone⟩ := Checked.bind_eq_ok_iff.mp hread
          cases hdone
          exact hfuel.members (hd.suffix_next (by decide) hend) hmembers
        · cases hread
      · rw [hpost] at hread
        cases hread
    · cases hread
  · cases hread

private theorem endsBefore (fuel : Nat) : EndsBefore d next maxDigits fuel := by
  induction fuel with
  | zero =>
    constructor
    · intro depth t j rest _ hread
      rw [readValue] at hread
      cases hread
    · intro depth t items rest _ hread
      rw [readItems] at hread
      cases hread
    · intro depth t members rest _ hread
      rw [readMembers] at hread
      cases hread
  | succ fuel ih =>
    exact ⟨readValue_seam hd ih, readItems_seam hd hnext ih, readMembers_seam hd hnext ih⟩

theorem readDocument_seam [Host] {t : Text} (h : seam d next <:+ t) (j : Json) :
    readDocument maxDigits t ≠ .ok j := by
  intro hread
  unfold readDocument readNested at hread
  split at hread
  · cases hread
  · have hstart := suffix_skipBlanks h hd.not_blank
    obtain ⟨⟨value, rest⟩, hvalue, hread⟩ := Checked.bind_eq_ok_iff.mp hread
    have hrest : AtSeam d next rest := (endsBefore hd hnext _).value hstart hvalue
    simp only at hread
    split at hread
    · rename_i hempty
      rcases hrest.skipBlanks hd hnext with hsuffix | ⟨post, hpost⟩
      · rw [hempty] at hsuffix
        simp [seam] at hsuffix
      · rw [hempty] at hpost
        cases hpost
    · cases hread

end Seam

theorem readWithin_eq_error [Host] {t : Text} (h : ∀ j, readDocument maxDigits t ≠ .ok j) :
    ∃ fault, readWithin maxDigits t = .error fault := by
  rw [readWithin]
  cases hread : readDocument maxDigits t with
  | ok j => exact absurd hread (h j)
  | error stop => exact ⟨_, rfl⟩

/-! ## Objects that do not begin with a name -/

private theorem readMembers_of_ne (fuel depth : Nat) {c : CodePoint} (hc : c ≠ '"') (v : Text) :
    ∃ stop, readMembers maxDigits fuel depth (c :: v) = .error stop := by
  cases fuel with
  | zero =>
    rw [readMembers]
    exact ⟨_, rfl⟩
  | succ fuel =>
    unfold readMembers
    split
    · rename_i hquote
      exact absurd (List.cons.inj hquote).1 hc
    · exact ⟨_, rfl⟩

/-- A text that opens an object and goes on neither with a name nor with the end of the document is
no document. -/
theorem readDocument_object [Host] {u v : Text} {c : CodePoint} (hu : skipBlanks u = c :: v)
    (hc : c ≠ '"') (hv : c = '\x7d' → skipBlanks v ≠ []) (j : Json) :
    readDocument maxDigits (.char '\x7b' :: u) ≠ .ok j := by
  have hskip : skipBlanks (.char '\x7b' :: u) = .char '\x7b' :: u := rfl
  obtain ⟨depth, hroom⟩ := Host.exists_room .reading
  intro hread
  unfold readDocument readNested at hread
  split at hread
  · cases hread
  · rw [hskip, hroom, readValue] at hread
    simp only [hu] at hread
    split at hread
    -- The object ends at once, so that more stands behind it.
    · rename_i after hclose
      obtain ⟨rfl, rfl⟩ := List.cons.inj hclose
      simp only [bind, Except.bind] at hread
      split at hread
      · rename_i hempty
        exact hv rfl hempty
      · cases hread
    · obtain ⟨stop, hstop⟩ :=
        @readMembers_of_ne maxDigits (2 * (u.length + 1) + 1) (depth + 15) c hc v
      simp only [List.length_cons, hstop] at hread
      cases hread

end ConversionCoverage.Json
