/-!
# Texts

A text is a sequence of Unicode code points. Besides characters it may hold halves of a
surrogate pair, which escapes in a document can bring in and which no encoding can write.
Texts are compared code point by code point, and lengths and positions count code points.
-/

namespace ConversionCoverage

/-- A code point: a character, or one half of a surrogate pair (`0xD800` to `0xDFFF`). -/
inductive CodePoint where
  | char (c : Char)
  | half (h : Fin 2048)
  deriving DecidableEq, Repr, Inhabited

namespace CodePoint

def toNat : CodePoint → Nat
  | .char c => c.toNat
  | .half h => 0xD800 + h.val

def ofNat? (n : Nat) : Option CodePoint :=
  if h : n.isValidChar then some (.char (Char.ofNatAux n h))
  else if h : 0xD800 ≤ n ∧ n < 0xE000 then some (.half ⟨n - 0xD800, by omega⟩)
  else none

instance : Coe Char CodePoint := ⟨.char⟩

instance : LT CodePoint := ⟨fun a b => a.toNat < b.toNat⟩

instance : LE CodePoint := ⟨fun a b => a.toNat ≤ b.toNat⟩

instance (a b : CodePoint) : Decidable (a < b) := inferInstanceAs (Decidable (a.toNat < b.toNat))

instance (a b : CodePoint) : Decidable (a ≤ b) := inferInstanceAs (Decidable (a.toNat ≤ b.toNat))

private theorem char_toNat_ne_half (c : Char) (h : Fin 2048) : c.toNat ≠ 0xD800 + h.val := by
  intro e
  have hv : c.toNat < 0xD800 ∨ 0xDFFF < c.toNat ∧ c.toNat < 0x110000 := c.valid
  have hh := h.isLt
  omega

theorem toNat_inj {a b : CodePoint} : a.toNat = b.toNat ↔ a = b := by
  constructor
  · intro h
    cases a with
    | char c =>
      cases b with
      | char d => exact congrArg CodePoint.char (Char.toNat_inj.mp h)
      | half k => exact absurd h (char_toNat_ne_half c k)
    | half j =>
      cases b with
      | char d => exact absurd h.symm (char_toNat_ne_half d j)
      | half k =>
        have : 0xD800 + j.val = 0xD800 + k.val := h
        exact congrArg CodePoint.half (Fin.ext (by omega))
  · exact fun h => congrArg toNat h

instance : Std.IsLinearOrder CodePoint where
  le_refl a := Nat.le_refl a.toNat
  le_trans _ _ _ := Nat.le_trans
  le_antisymm _ _ h₁ h₂ := toNat_inj.mp (Nat.le_antisymm h₁ h₂)
  le_total a b := Nat.le_total a.toNat b.toNat

instance : Std.LawfulOrderLT CodePoint where
  lt_iff _ _ := Nat.lt_iff_le_and_not_ge

end CodePoint

/-- A sequence of code points. -/
abbrev Text := List CodePoint

namespace Text

def ofString (s : String) : Text := s.toList.map .char

instance : Coe String Text := ⟨ofString⟩

def ofNat (n : Nat) : Text := ofString (Nat.repr n)

/-- An integer in decimal, with `-` before a negative one. -/
def ofInt : Int → Text
  | .ofNat n => ofNat n
  | .negSucc n => '-' :: ofNat (n + 1)

/-- The pieces with `separator` between each two of them. -/
def join (separator : Text) : List Text → Text
  | [] => []
  | [t] => t
  | t :: rest => t ++ separator ++ join separator rest

def repeated (t : Text) (n : Nat) : Text := (List.replicate n t).flatten

def spaces (n : Nat) : Text := List.replicate n ' '

/-- The text filled up with spaces on the right until it is `width` long. -/
def padRight (t : Text) (width : Nat) : Text := t ++ spaces (width - t.length)

def zeros (n : Nat) : Text := List.replicate n '0'

/-- The number `n` in decimal with zeros before it until it has `width` digits. -/
def zeroPadded (width n : Nat) : Text :=
  let digits := ofNat n
  zeros (width - digits.length) ++ digits

/-- The digits `0` to `9` and `a` to `f`, by value. -/
def hexDigit (n : Nat) : CodePoint := .char (Nat.digitChar n)

/-- The last `width` hexadecimal digits of `n`, in small letters. -/
def hex : (width n : Nat) → Text
  | 0, _ => []
  | width + 1, n => hex width (n / 16) ++ [hexDigit (n % 16)]

/-- The pieces of a text between the places where `separator` stands. -/
def splitOn (separator : CodePoint) (t : Text) : List Text :=
  t.foldr (fun c pieces =>
    match pieces with
    | [] => [[c]]
    | piece :: rest => if c = separator then [] :: piece :: rest else (c :: piece) :: rest) [[]]

/-- Line breaks of every convention (`\r\n`, `\r` and `\n`) become `\n`. -/
def normalizeBreaks : Text → Text
  | [] => []
  | .char '\r' :: .char '\n' :: rest => '\n' :: normalizeBreaks rest
  | .char '\r' :: rest => '\n' :: normalizeBreaks rest
  | c :: rest => c :: normalizeBreaks rest

/-- The order of texts as a test, for sorting. -/
def le (a b : Text) : Bool := decide (a ≤ b)

def sort (texts : List Text) : List Text := texts.mergeSort le

/-- Puts a text into an increasing list, unless it is there already. -/
def insertDistinct (t : Text) : List Text → List Text
  | [] => [t]
  | u :: rest =>
    if t < u then t :: u :: rest
    else if t = u then u :: rest
    else u :: insertDistinct t rest

/-- The different texts of a list in increasing order. -/
def distinct (texts : List Text) : List Text := texts.foldr insertDistinct []

theorem le_trans (a b c : Text) (h₁ : le a b) (h₂ : le b c) : le a c := by
  simp only [le, decide_eq_true_eq] at *
  exact List.le_trans h₁ h₂

theorem le_total (a b : Text) : le a b || le b a := by
  simp only [le, Bool.or_eq_true, decide_eq_true_eq]
  exact List.le_total a b

theorem le_antisymm {a b : Text} (h₁ : le a b) (h₂ : le b a) : a = b := by
  simp only [le, decide_eq_true_eq] at *
  exact List.le_antisymm h₁ h₂

theorem pairwise_sort (texts : List Text) : (sort texts).Pairwise fun a b => le a b :=
  List.pairwise_mergeSort le_trans le_total texts

theorem mem_insertDistinct {t u : Text} {texts : List Text} :
    u ∈ insertDistinct t texts ↔ u = t ∨ u ∈ texts := by
  induction texts with
  | nil => simp [insertDistinct]
  | cons v rest ih =>
    unfold insertDistinct
    split
    · simp
    · split
      · rename_i h
        subst h
        simp
      · simp only [List.mem_cons, ih]
        constructor
        · rintro (h | h | h) <;> simp [h]
        · rintro (h | h | h) <;> simp [h]

theorem pairwise_insertDistinct {t : Text} {texts : List Text}
    (h : texts.Pairwise (· < ·)) : (insertDistinct t texts).Pairwise (· < ·) := by
  induction texts with
  | nil => simp [insertDistinct]
  | cons v rest ih =>
    obtain ⟨hv, hrest⟩ := List.pairwise_cons.mp h
    unfold insertDistinct
    split
    · rename_i htv
      refine List.pairwise_cons.mpr ⟨fun u hu => ?_, h⟩
      rcases List.mem_cons.mp hu with rfl | hu
      · exact htv
      · exact List.lt_trans htv (hv u hu)
    · split
      · exact h
      · rename_i hle hne
        refine List.pairwise_cons.mpr ⟨fun u hu => ?_, ih hrest⟩
        rcases mem_insertDistinct.mp hu with rfl | hu
        · exact Decidable.byContradiction fun hge =>
            hne (List.le_antisymm (List.not_lt.mp hge) (List.not_lt.mp hle))
        · exact hv u hu

theorem mem_distinct {t : Text} {texts : List Text} : t ∈ distinct texts ↔ t ∈ texts := by
  induction texts with
  | nil => simp [distinct]
  | cons u rest ih =>
    have : distinct (u :: rest) = insertDistinct u (distinct rest) := rfl
    rw [this, mem_insertDistinct, ih, List.mem_cons]

theorem pairwise_distinct (texts : List Text) : (distinct texts).Pairwise (· < ·) := by
  induction texts with
  | nil => simp [distinct]
  | cons u rest ih => exact pairwise_insertDistinct ih

theorem sort_perm (texts : List Text) : (sort texts).Perm texts := List.mergeSort_perm texts le

end Text

end ConversionCoverage
