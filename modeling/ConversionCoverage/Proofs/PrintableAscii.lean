import ConversionCoverage.Proofs.JsonNumber
import ConversionCoverage.Proofs.JsonText

/-!
# Printable ASCII

Numerals are printable ASCII, and so are texts in JSON once everything else has been escaped. There
is neither a line break nor half of a surrogate pair in printable ASCII.
-/

namespace ConversionCoverage

def CodePoint.IsPrintableAscii (c : CodePoint) : Prop := 0x20 ≤ c.toNat ∧ c.toNat < 0x7F

instance (c : CodePoint) : Decidable c.IsPrintableAscii :=
  inferInstanceAs (Decidable (0x20 ≤ c.toNat ∧ c.toNat < 0x7F))

private theorem CodePoint.IsPrintableAscii.ne_newline {c : CodePoint} (h : c.IsPrintableAscii) :
    c ≠ '\n' := by
  rintro rfl
  exact absurd h (by decide)

namespace Text

def IsPrintableAscii (t : Text) : Prop := ∀ c ∈ t, c.IsPrintableAscii

instance (t : Text) : Decidable t.IsPrintableAscii :=
  inferInstanceAs (Decidable (∀ c ∈ t, c.IsPrintableAscii))

@[simp] theorem isPrintableAscii_nil : IsPrintableAscii [] := nofun

@[simp] theorem isPrintableAscii_cons (c : CodePoint) (t : Text) :
    IsPrintableAscii (c :: t) ↔ c.IsPrintableAscii ∧ t.IsPrintableAscii := List.forall_mem_cons

@[simp] theorem isPrintableAscii_append (t u : Text) :
    IsPrintableAscii (t ++ u) ↔ t.IsPrintableAscii ∧ u.IsPrintableAscii := List.forall_mem_append

theorem IsPrintableAscii.newline_notMem {t : Text} (h : t.IsPrintableAscii) : .char '\n' ∉ t :=
  fun hmem => (h _ hmem).ne_newline rfl

/-! ## Numerals -/

theorem IsDigits.isPrintableAscii {t : Text} (h : t.IsDigits) : t.IsPrintableAscii := by
  obtain ⟨cs, hcs, rfl⟩ := h.exists_map_char
  intro c hc
  obtain ⟨d, hd, rfl⟩ := List.mem_map.mp hc
  have hdigit := hcs d hd
  simp only [Char.isDigit, Bool.and_eq_true, decide_eq_true_eq, UInt32.le_iff_toNat_le] at hdigit
  exact ⟨Nat.le_trans (by decide) hdigit.1, Nat.lt_of_le_of_lt hdigit.2 (by decide)⟩

theorem isPrintableAscii_signPart (negative : Bool) :
    (Binary64.signPart negative).IsPrintableAscii := by
  cases negative <;> decide

theorem isPrintableAscii_ofInt (n : Int) : (ofInt n).IsPrintableAscii := by
  rw [Json.ofInt_eq, isPrintableAscii_append]
  exact ⟨isPrintableAscii_signPart _, (isDigits_ofNat _).isPrintableAscii⟩

private theorem isPrintableAscii_hex (width n : Nat) : (hex width n).IsPrintableAscii := by
  have hdigit : ∀ d < 16, (hexDigit d).IsPrintableAscii := by decide
  induction width generalizing n with
  | zero => exact isPrintableAscii_nil
  | succ width ih =>
    rw [hex, isPrintableAscii_append]
    exact ⟨ih _, by simpa using hdigit _ (Nat.mod_lt n (by decide))⟩

end Text

namespace Binary64

open Text

private theorem isPrintableAscii_exponentPart (e : Int) : (exponentPart e).IsPrintableAscii := by
  have hdigits := (Json.isDigits_zeroPadded 2 e.natAbs).isPrintableAscii
  rw [exponentPart, isPrintableAscii_cons, isPrintableAscii_cons]
  refine ⟨by decide, ?_, hdigits⟩
  split <;> decide

private theorem isPrintableAscii_layOut {digits : Text} (hdigits : digits.IsDigits) (point : Int) :
    (layOut digits point).IsPrintableAscii := by
  have hzeros (n : Nat) : (zeros n).IsPrintableAscii := (isDigits_zeros n).isPrintableAscii
  have htake (n : Nat) : IsPrintableAscii (digits.take n) :=
    (hdigits.sublist (List.take_sublist n digits)).isPrintableAscii
  have hdrop (n : Nat) : IsPrintableAscii (digits.drop n) :=
    (hdigits.sublist (List.drop_sublist n digits)).isPrintableAscii
  have hexponent := isPrintableAscii_exponentPart (point - 1)
  have hpoint : CodePoint.IsPrintableAscii '.' := by decide
  have hstart : IsPrintableAscii "0." := by decide
  have hend : IsPrintableAscii ".0" := by decide
  have hmiddle : IsPrintableAscii "." := by decide
  unfold layOut
  split
  · split
    · simp [hzeros, hstart, hdigits.isPrintableAscii]
    · split <;> simp [hzeros, htake, hdrop, hend, hmiddle, hdigits.isPrintableAscii]
  · simp only
    split <;> simp [htake, hdrop, hexponent, hpoint, -List.drop_one]

private theorem isPrintableAscii_toText (x : Binary64) : x.toText.IsPrintableAscii := by
  have hsign := isPrintableAscii_signPart
  have hinfinite : IsPrintableAscii "inf" := by decide
  have hzero : IsPrintableAscii "0.0" := by decide
  cases x with
  | nan => exact (by decide : IsPrintableAscii "nan")
  | infinite negative => simp [toText, hsign, hinfinite]
  | finite negative m e =>
    rw [toText]
    split
    · simp [hsign, hzero]
    · obtain ⟨digits, exponent⟩ := shortest m e
      have hshown : IsDigits ((ofNat digits).reverse.dropWhile (· = .char '0')).reverse := by
        intro c hc
        apply isDigits_ofNat digits
        exact List.mem_reverse.mp (List.dropWhile_subset _ (List.mem_reverse.mp hc))
      simp [significantDigits, hsign, isPrintableAscii_layOut hshown]

theorem isPrintableAscii_toFixed (places : Nat) (x : Binary64) :
    (x.toFixed places).IsPrintableAscii := by
  have hsign := isPrintableAscii_signPart
  have hinfinite : IsPrintableAscii "inf" := by decide
  have hpoint : CodePoint.IsPrintableAscii '.' := by decide
  cases x with
  | nan => exact (by decide : IsPrintableAscii "nan")
  | infinite negative => simp [toFixed, hsign, hinfinite]
  | finite negative m e =>
    have hwhole (n : Nat) := (isDigits_ofNat n).isPrintableAscii
    have hplaces (n : Nat) := (Json.isDigits_zeroPadded places n).isPrintableAscii
    rw [toFixed]
    split <;> simp [hsign, hwhole, hplaces, hpoint]

end Binary64

namespace Json

open Text

theorem isPrintableAscii_printFloat (x : Binary64) : (printFloat x).IsPrintableAscii := by
  cases x with
  | nan => exact (by decide : IsPrintableAscii "NaN")
  | infinite negative =>
    cases negative with
    | true => exact (by decide : IsPrintableAscii "-Infinity")
    | false => exact (by decide : IsPrintableAscii "Infinity")
  | finite negative m e => exact Binary64.isPrintableAscii_toText (.finite negative m e)

theorem isPrintableAscii_unicodeEscape (n : Nat) : (unicodeEscape n).IsPrintableAscii := by
  rw [unicodeEscape, isPrintableAscii_append]
  exact ⟨by decide, isPrintableAscii_hex 4 n⟩

private theorem isPrintableAscii_fullEscape (n : Nat) : (fullEscape n).IsPrintableAscii := by
  unfold fullEscape
  split
  · exact isPrintableAscii_unicodeEscape _
  · rw [isPrintableAscii_append]
    exact ⟨isPrintableAscii_unicodeEscape _, isPrintableAscii_unicodeEscape _⟩

private theorem isPrintableAscii_of_simpleEscape? {letter : CodePoint} {e : Char}
    (h : simpleEscape? letter = some e) : letter.IsPrintableAscii := by
  unfold simpleEscape? at h
  split at h
  case h_9 => cases h
  all_goals decide

/-- What a document on one line may hold: no control characters, and where only ASCII is written
nothing else. -/
def Layout.Shows (layout : Layout) (c : CodePoint) : Prop :=
  0x20 ≤ c.toNat ∧ (layout.ascii → c.toNat < 0x7F)

end Json

theorem Text.IsPrintableAscii.shows {t : Text} (h : t.IsPrintableAscii) (layout : Json.Layout) :
    ∀ c ∈ t, layout.Shows c := fun c hc => ⟨(h c hc).1, fun _ => (h c hc).2⟩

namespace Json

private theorem shows_escapePoint (layout : Layout) (c : CodePoint) :
    ∀ d ∈ escapePoint layout.ascii c, layout.Shows d := by
  rcases escapePoint_cases layout.ascii c with
    ⟨letter, e, -, hescape, -, he⟩ | ⟨-, hescape⟩ | ⟨-, -, hc, hescape⟩
  · have hletter := isPrintableAscii_of_simpleEscape? he
    have hslash : CodePoint.IsPrintableAscii '\\' := by decide
    rw [hescape]
    exact Text.IsPrintableAscii.shows (by simp [hletter, hslash]) layout
  · rw [hescape]
    exact (isPrintableAscii_unicodeEscape _).shows layout
  · rw [hescape]
    split
    · exact (isPrintableAscii_fullEscape _).shows layout
    · rename_i hplain
      intro d hd
      obtain rfl := List.mem_singleton.mp hd
      refine ⟨Nat.le_of_not_lt hc, fun hascii => ?_⟩
      simpa [hascii] using hplain

theorem shows_printText (layout : Layout) (t : Text) :
    ∀ c ∈ printText layout.ascii t, layout.Shows c := by
  have hquote : layout.Shows '"' := ⟨by decide, fun _ => by decide⟩
  intro c hc
  rcases List.mem_append.mp hc with hc | hc
  · rcases List.mem_cons.mp hc with rfl | hc
    · exact hquote
    · obtain ⟨d, -, hd⟩ := List.mem_flatMap.mp hc
      exact shows_escapePoint layout d c hd
  · obtain rfl := List.mem_singleton.mp hc
    exact hquote

end Json

end ConversionCoverage
