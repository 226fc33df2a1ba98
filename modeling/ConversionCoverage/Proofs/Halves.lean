import ConversionCoverage.Proofs.PrintableAscii
import ConversionCoverage.Text.Utf8

/-!
# Halves of surrogate pairs

A text can be encoded unless it holds half of a surrogate pair. Printed numbers hold none, and a
printed JSON value holds one only if one of its texts or names does, since halves are not escaped.
-/

namespace ConversionCoverage

namespace Text

/-- The text holds half of a surrogate pair. -/
def HasHalf (t : Text) : Prop := ∃ h, CodePoint.half h ∈ t

instance (t : Text) : Decidable t.HasHalf :=
  decidable_of_iff (t.any Utf8.isHalf = true) <| by
    rw [List.any_eq_true]
    constructor
    · rintro ⟨c, hc, hhalf⟩
      cases c with
      | char c => cases hhalf
      | half h => exact ⟨h, hc⟩
    · rintro ⟨h, hmem⟩
      exact ⟨_, hmem, rfl⟩

@[simp] theorem not_hasHalf_nil : ¬ HasHalf [] := by
  simp [HasHalf]

@[simp] theorem hasHalf_char_cons (c : Char) (t : Text) : HasHalf (.char c :: t) ↔ t.HasHalf := by
  simp [HasHalf]

@[simp] theorem hasHalf_half_cons (h : Fin 2048) (t : Text) : HasHalf (.half h :: t) :=
  ⟨h, List.mem_cons_self⟩

@[simp] theorem hasHalf_append (t u : Text) : HasHalf (t ++ u) ↔ t.HasHalf ∨ u.HasHalf := by
  simp [HasHalf, exists_or]

theorem hasHalf_flatMap {α : Type} (xs : List α) (f : α → Text) :
    HasHalf (xs.flatMap f) ↔ ∃ x ∈ xs, (f x).HasHalf := by
  constructor
  · rintro ⟨h, hmem⟩
    obtain ⟨x, hx, hfx⟩ := List.mem_flatMap.mp hmem
    exact ⟨x, hx, h, hfx⟩
  · rintro ⟨x, hx, h, hmem⟩
    exact ⟨h, List.mem_flatMap.mpr ⟨x, hx, hmem⟩⟩

@[simp] theorem not_hasHalf_ofString (s : String) : ¬ HasHalf (ofString s) := by
  simp [HasHalf, ofString]

theorem not_hasHalf_repeated {t : Text} (h : ¬ t.HasHalf) (n : Nat) : ¬ (t.repeated n).HasHalf := by
  rintro ⟨k, hk⟩
  obtain ⟨u, hu, hmem⟩ := List.mem_flatten.mp hk
  obtain rfl := List.eq_of_mem_replicate hu
  exact h ⟨k, hmem⟩

theorem hasHalf_join {separator : Text} (h : ¬ separator.HasHalf) (ts : List Text) :
    HasHalf (join separator ts) ↔ ∃ t ∈ ts, t.HasHalf := by
  fun_induction join separator ts with
  | case1 => simp
  | case2 t => simp
  | case3 t rest hrest ih => simp [h, ih]

/-! ## Numerals -/

theorem IsPrintableAscii.not_hasHalf {t : Text} (h : t.IsPrintableAscii) : ¬ t.HasHalf := by
  rintro ⟨k, hk⟩
  have hlast := (h _ hk).2
  simp only [CodePoint.toNat] at hlast
  omega

@[simp] theorem not_hasHalf_ofNat (n : Nat) : ¬ (ofNat n).HasHalf :=
  (isDigits_ofNat n).isPrintableAscii.not_hasHalf

@[simp] theorem not_hasHalf_ofInt (n : Int) : ¬ (ofInt n).HasHalf :=
  (isPrintableAscii_ofInt n).not_hasHalf

end Text

@[simp] theorem Binary64.not_hasHalf_toFixed (places : Nat) (x : Binary64) :
    ¬ (x.toFixed places).HasHalf := (isPrintableAscii_toFixed places x).not_hasHalf

namespace Json

open Text

/-- A text or the name of a member, somewhere in the value, holds half of a surrogate pair. -/
inductive HasHalf : Json → Prop
  | text {t : Text} (h : t.HasHalf) : HasHalf (.text t)
  | item {items : List Json} {j : Json} (hj : j ∈ items) (h : HasHalf j) : HasHalf (.array items)
  | name {members : List (Text × Json)} {m : Text × Json} (hm : m ∈ members)
    (h : m.1.HasHalf) : HasHalf (.object members)
  | value {members : List (Text × Json)} {m : Text × Json} (hm : m ∈ members)
    (h : HasHalf m.2) : HasHalf (.object members)

@[simp] theorem hasHalf_text (t : Text) : HasHalf (.text t) ↔ t.HasHalf := by
  constructor
  · intro h
    cases h
    assumption
  · exact .text

theorem hasHalf_array (items : List Json) : HasHalf (.array items) ↔ ∃ j ∈ items, j.HasHalf := by
  constructor
  · intro h
    cases h with
    | item hj h => exact ⟨_, hj, h⟩
  · rintro ⟨j, hj, h⟩
    exact .item hj h

theorem hasHalf_object (members : List (Text × Json)) :
    HasHalf (.object members) ↔ ∃ m ∈ members, m.1.HasHalf ∨ m.2.HasHalf := by
  constructor
  · intro h
    cases h with
    | name hm h => exact ⟨_, hm, .inl h⟩
    | value hm h => exact ⟨_, hm, .inr h⟩
  · rintro ⟨m, hm, h | h⟩
    · exact .name hm h
    · exact .value hm h

@[simp] theorem not_hasHalf_null : ¬ HasHalf .null := nofun

@[simp] theorem not_hasHalf_bool (b : Bool) : ¬ HasHalf (.bool b) := nofun

@[simp] theorem not_hasHalf_int (n : Int) : ¬ HasHalf (.int n) := nofun

@[simp] theorem not_hasHalf_float (x : Binary64) : ¬ HasHalf (.float x) := nofun

/-! ## Printing -/

private theorem not_hasHalf_unicodeEscape (n : Nat) : ¬ (unicodeEscape n).HasHalf :=
  (isPrintableAscii_unicodeEscape n).not_hasHalf

private theorem hasHalf_escapePoint (c : CodePoint) :
    (escapePoint false c).HasHalf ↔ ∃ h, c = .half h := by
  rcases escapePoint_cases false c with
    ⟨letter, e, rfl, hescape, -, hletter⟩ | ⟨hsmall, hescape⟩ | ⟨-, -, -, hescape⟩
  · cases letter with
    | half h => cases hletter
    | char letter => simp [hescape]
  · have hchar : ∀ h, c ≠ .half h := by
      rintro h rfl
      simp only [CodePoint.toNat] at hsmall
      omega
    simp only [hescape, not_hasHalf_unicodeEscape, hchar, exists_false]
  · rw [hescape, Bool.false_and, if_neg Bool.false_ne_true]
    cases c <;> simp

@[simp] theorem hasHalf_printText (t : Text) : (printText false t).HasHalf ↔ t.HasHalf := by
  have hescaped : Text.HasHalf (t.flatMap (escapePoint false)) ↔ t.HasHalf := by
    rw [hasHalf_flatMap]
    simp only [hasHalf_escapePoint]
    constructor
    · rintro ⟨c, hc, h, rfl⟩
      exact ⟨h, hc⟩
    · rintro ⟨h, hmem⟩
      exact ⟨_, hmem, h, rfl⟩
  simp [printText, hescaped]

private theorem not_hasHalf_printFloat (x : Binary64) : ¬ (printFloat x).HasHalf :=
  (isPrintableAscii_printFloat x).not_hasHalf

/-- A layout that keeps characters outside ASCII and indents without halves. -/
structure Layout.Halfless (layout : Layout) : Prop where
  ascii : layout.ascii = false
  indent : ∀ indent ∈ layout.indent, ¬ indent.HasHalf

theorem halfless_line : Layout.line.Halfless := ⟨rfl, fun _ h => nomatch h⟩

theorem halfless_indented {indent : Text} (h : ¬ indent.HasHalf) :
    (Layout.indented indent).Halfless := by
  refine ⟨rfl, fun t ht => ?_⟩
  cases ht
  exact h

section Printing

variable {layout : Layout} (hlayout : layout.Halfless)
include hlayout

theorem not_hasHalf_lineStart (k : Nat) : ¬ (layout.lineStart k).HasHalf := by
  rw [Layout.lineStart]
  cases hindent : layout.indent with
  | none => exact not_hasHalf_nil
  | some indent =>
    simp only [hasHalf_char_cons]
    exact not_hasHalf_repeated (hlayout.indent indent hindent) k

theorem not_hasHalf_separator (k : Nat) : ¬ (layout.separator k).HasHalf := by
  have hstart := not_hasHalf_lineStart hlayout k
  rw [Layout.separator]
  split
  · exact not_hasHalf_ofString _
  · simpa using hstart

-- The recursion is that of the printer: a value, the items of an array, the members of an object.
mutual

/-- Halves come through the printer, and it adds none. -/
theorem hasHalf_print (k : Nat) : (j : Json) → ((print layout k j).HasHalf ↔ j.HasHalf)
  | .null => by simp [print]
  | .bool true => by simp [print]
  | .bool false => by simp [print]
  | .int n => by simp [print]
  | .float x => by simp [print, not_hasHalf_printFloat]
  | .text t => by simp [print, hlayout.ascii]
  | .array [] => by simp [print, hasHalf_array]
  | .array (item :: rest) => by
    have hitem := hasHalf_print (k + 1) item
    have hrest := hasHalf_printItems k rest
    simp [print, hasHalf_array, not_hasHalf_lineStart hlayout, hitem, hrest]
  | .object [] => by simp [print, hasHalf_object]
  | .object ((name, value) :: rest) => by
    have hvalue := hasHalf_print (k + 1) value
    have hrest := hasHalf_printMembers k rest
    simp [print, hasHalf_object, not_hasHalf_lineStart hlayout, hlayout.ascii, hvalue, hrest,
      or_assoc]

theorem hasHalf_printItems (k : Nat) : (items : List Json) →
    ((printItems layout k items).HasHalf ↔ ∃ j ∈ items, j.HasHalf)
  | [] => by simp [printItems, not_hasHalf_lineStart hlayout]
  | item :: rest => by
    have hitem := hasHalf_print (k + 1) item
    have hrest := hasHalf_printItems k rest
    simp [printItems, not_hasHalf_separator hlayout, hitem, hrest]

theorem hasHalf_printMembers (k : Nat) : (members : List (Text × Json)) →
    ((printMembers layout k members).HasHalf ↔ ∃ m ∈ members, m.1.HasHalf ∨ m.2.HasHalf)
  | [] => by simp [printMembers, not_hasHalf_lineStart hlayout]
  | (name, value) :: rest => by
    have hvalue := hasHalf_print (k + 1) value
    have hrest := hasHalf_printMembers k rest
    simp [printMembers, not_hasHalf_separator hlayout, hlayout.ascii, hvalue, hrest, or_assoc]

end

end Printing

end Json

namespace Utf8

theorem isOk_encode_iff (t : Text) : (encode t).isOk ↔ ¬ t.HasHalf := by
  have hfrom (position : Nat) : (encodeFrom position t).isOk ↔ ¬ t.HasHalf := by
    induction t generalizing position with
    | nil => simp [encodeFrom, Except.isOk, Except.toBool]
    | cons c rest ih =>
      cases c with
      | half h => simp [encodeFrom, Except.isOk, Except.toBool]
      | char c =>
        rw [Text.hasHalf_char_cons, ← ih (position + 1), encodeFrom]
        cases encodeFrom (position + 1) rest <;> rfl
  exact hfrom 0

theorem exists_encode_eq_ok {t : Text} (h : ¬ t.HasHalf) : ∃ bytes, encode t = .ok bytes := by
  have hok := (isOk_encode_iff t).mpr h
  cases hencode : encode t with
  | ok bytes => exact ⟨bytes, rfl⟩
  | error fault => simp [hencode, Except.isOk, Except.toBool] at hok

theorem exists_encode_eq_error {t : Text} (h : t.HasHalf) : ∃ fault, encode t = .error fault := by
  cases hencode : encode t with
  | error fault => exact ⟨fault, rfl⟩
  | ok bytes => exact absurd h ((isOk_encode_iff t).mp (by rw [hencode]; rfl))

end Utf8

end ConversionCoverage
