import ConversionCoverage.Proofs.Issues
import ConversionCoverage.Proofs.Nearest
import ConversionCoverage.Proofs.Nesting
import ConversionCoverage.Proofs.Numerals

/-!
# The grammar of severities

What denotes a severity: its number, a decimal equal to the number, a numeral of decimal digits or
its name, the last two with blanks around them. All other data are faults, which are issues at the
severity of an attempt.
-/

namespace ConversionCoverage

namespace Severity

open CodePoint (InRanges)

/-! ## Letters -/

/-- The ranges of the letters that names are written in. -/
def letterRanges : List (Nat × Nat) :=
  [(0x41, 0x5A), (0x61, 0x7A), (0xDF, 0xDF), (0x131, 0x131), (0x17F, 0x17F)]

theorem isAlpha_iff {c : Char} : c.isAlpha ↔ c.isUpper ∨ c.isLower := by
  change (c.isUpper || c.isLower) = true ↔ _
  rw [Bool.or_eq_true]

theorem isUpper_iff {c : Char} : c.isUpper ↔ 65 ≤ c.toNat ∧ c.toNat ≤ 90 := by
  change decide (c.val ≥ 65 ∧ c.val ≤ 90) = true ↔ _
  simp [UInt32.le_iff_toNat_le]

private theorem isLower_iff {c : Char} : c.isLower ↔ 97 ≤ c.toNat ∧ c.toNat ≤ 122 := by
  change (decide (c.val ≥ 97) && decide (c.val ≤ 122)) = true ↔ _
  simp [UInt32.le_iff_toNat_le]

private theorem toUpper_of_not_isLower {c : Char} (h : ¬ c.isLower) : c.toUpper = c := by
  apply dif_neg
  rintro ⟨hlow, hhigh⟩
  exact h (Bool.and_eq_true_iff.mpr ⟨decide_eq_true hlow, decide_eq_true hhigh⟩)

private theorem inRanges_of_isAlpha {c : Char} (h : c.isAlpha) :
    InRanges letterRanges (.char c) := by
  rcases isAlpha_iff.mp h with hupper | hlower
  · exact ⟨(0x41, 0x5A), by decide, isUpper_iff.mp hupper⟩
  · exact ⟨(0x61, 0x7A), by decide, isLower_iff.mp hlower⟩

/-! ## Names -/

/-- The letters outside ASCII that are capitals or pairs of capitals of the names in small form. -/
def foreignLetters : List (String × Char) := [("SS", 'ß'), ("I", 'ı'), ("S", 'ſ')]

/-- A name in capitals and a text that writes it: each letter large or small, or any of some
letters from outside ASCII in place of its capitals. -/
inductive Spelled (others : List (String × Char)) : Text → Text → Prop where
  | nil : Spelled others [] []
  | letter {c : Char} {name written : Text} (hletter : c.isAlpha)
      (h : Spelled others name written) :
      Spelled others (.char c.toUpper :: name) (.char c :: written)
  | other {capitals : String} {c : Char} {name written : Text} (hother : (capitals, c) ∈ others)
      (h : Spelled others name written) : Spelled others (capitals ++ name) (.char c :: written)

variable {others : List (String × Char)} {s : Severity} {name written t : Text}

theorem Spelled.inRanges (hothers : others ⊆ foreignLetters) (h : Spelled others name written) :
    ∀ c ∈ written, InRanges letterRanges c := by
  induction h with
  | nil => simp
  | letter hletter _ ih =>
    rw [List.forall_mem_cons]
    exact ⟨inRanges_of_isAlpha hletter, ih⟩
  | @other capitals c _ _ hother _ ih =>
    have hforeign : ∀ entry ∈ foreignLetters,
        ∃ range ∈ letterRanges, range.1 ≤ entry.2.toNat ∧ entry.2.toNat ≤ range.2 := by decide
    rw [List.forall_mem_cons]
    exact ⟨hforeign (capitals, c) (hothers hother), ih⟩

/-- The pairs of capitals that ligatures stand for. -/
def ligatures : List String := ["FF", "FI", "FL", "ST"]

/-- Capitals among which no ligature can stand. -/
structure Plain (name : Text) : Prop where
  capitals : ∀ c ∈ name, ∃ letter : Char, c = .char letter ∧ letter.isUpper
  apart : ∀ pair ∈ ligatures, ¬ (pair : Text) <:+: name

private theorem plain_name (s : Severity) : Plain s.name := by
  have hcapitals (name : String) (h : name.toList.all Char.isUpper = true) :
      ∀ c ∈ (name : Text), ∃ letter : Char, c = .char letter ∧ letter.isUpper := by
    intro c hc
    obtain ⟨letter, hletter, rfl⟩ := List.mem_map.mp hc
    exact ⟨letter, rfl, List.all_eq_true.mp h letter hletter⟩
  cases s <;> exact ⟨hcapitals _ (by decide), by decide⟩

private theorem Plain.of_append {before after : Text} (h : Plain (before ++ after)) :
    Plain after where
  capitals c hc := h.capitals c (List.mem_append_right before hc)
  apart pair hpair hwithin :=
    h.apart pair hpair (hwithin.trans (List.suffix_append before after).isInfix)

theorem toCapitals_of_isAlpha {c : Char} (h : c.isAlpha) :
    CodePoint.toCapitals (.char c) = [.char c.toUpper] := by
  by_cases hlower : c.isLower
  · simp [CodePoint.toCapitals, hlower]
  · have hupper := isUpper_iff.mp ((isAlpha_iff.mp h).resolve_right hlower)
    have hlarge : ∀ entry ∈ CodePoint.asciiCapitals, 90 < entry.1 := by decide
    have hlookup : CodePoint.asciiCapitals.lookup c.toNat = none := by
      rw [List.lookup_eq_none_iff]
      intro entry hentry
      have hbeyond := hlarge entry hentry
      rw [bne_iff_ne]
      omega
    simp [CodePoint.toCapitals, hlower, hlookup, toUpper_of_not_isLower hlower]

private theorem toCapitals_of_foreign {capitals : String} {c : Char}
    (h : (capitals, c) ∈ foreignLetters) : CodePoint.toCapitals (.char c) = capitals := by
  have hall : ∀ entry ∈ foreignLetters, CodePoint.toCapitals (.char entry.2) = entry.1 := by decide
  exact hall (capitals, c) h

theorem Spelled.toCapitals (h : Spelled foreignLetters name written) :
    written.toCapitals = name := by
  induction h with
  | nil => rfl
  | letter hletter _ ih =>
    rw [Text.toCapitals, List.flatMap_cons, toCapitals_of_isAlpha hletter, ← Text.toCapitals, ih,
      List.singleton_append]
  | other hother _ ih =>
    rw [Text.toCapitals, List.flatMap_cons, toCapitals_of_foreign hother, ← Text.toCapitals, ih]

theorem foreign_or_ligature {c : Char} {capitals : String}
    (h : CodePoint.asciiCapitals.lookup c.toNat = some capitals) :
    (capitals, c) ∈ foreignLetters ∨ ∃ pair ∈ ligatures, (pair : Text) <+: capitals := by
  have hall : ∀ entry ∈ CodePoint.asciiCapitals,
      (∃ foreign ∈ foreignLetters, foreign.2.toNat = entry.1 ∧ foreign.1 = entry.2) ∨
        ∃ pair ∈ ligatures, (pair : Text) <+: (entry.2 : Text) := by decide
  obtain ⟨before, after, hlist, -⟩ := List.lookup_eq_some_iff.mp h
  have hmem : (c.toNat, capitals) ∈ CodePoint.asciiCapitals := by simp [hlist]
  rcases hall _ hmem with ⟨foreign, hforeign, hletter, rfl⟩ | hligature
  · obtain rfl : foreign.2 = c := Char.toNat_inj.mp hletter
    exact .inl hforeign
  · exact .inr hligature

theorem Spelled.cons {c : CodePoint} (hplain : Plain (c.toCapitals ++ name))
    (h : Spelled foreignLetters name written) :
    Spelled foreignLetters (c.toCapitals ++ name) (c :: written) := by
  cases c with
  | half k =>
    obtain ⟨letter, hletter, -⟩ := hplain.capitals (.half k) (by simp [CodePoint.toCapitals])
    cases hletter
  | char c =>
    by_cases hlower : c.isLower
    · have hletter : c.isAlpha := isAlpha_iff.mpr (.inr hlower)
      rw [toCapitals_of_isAlpha hletter]
      exact .letter hletter h
    · cases hlookup : CodePoint.asciiCapitals.lookup c.toNat with
      | none =>
        -- It is its own capital form, and thus a capital itself.
        have hself : CodePoint.toCapitals (.char c) = [.char c] := by
          simp [CodePoint.toCapitals, hlower, hlookup]
        rw [hself] at hplain
        obtain ⟨letter, hletter, hupper⟩ := hplain.capitals (.char c) (by simp)
        cases hletter
        have hletter : c.isAlpha := isAlpha_iff.mpr (.inl hupper)
        rw [toCapitals_of_isAlpha hletter]
        exact .letter hletter h
      | some capitals =>
        have hcapitals : CodePoint.toCapitals (.char c) = capitals := by
          simp [CodePoint.toCapitals, hlower, hlookup]
        rw [hcapitals] at hplain ⊢
        rcases foreign_or_ligature hlookup with hforeign | ⟨pair, hpair, hstarts⟩
        · exact .other hforeign h
        · exact absurd (hstarts.isInfix.trans (List.prefix_append _ name).isInfix)
            (hplain.apart pair hpair)

private theorem toCapitals_eq_iff (hplain : Plain name) :
    written.toCapitals = name ↔ Spelled foreignLetters name written := by
  refine ⟨?_, Spelled.toCapitals⟩
  rintro rfl
  induction written with
  | nil => exact .nil
  | cons c rest ih => exact .cons hplain (ih hplain.of_append)

private theorem ofName?_eq_some_iff :
    ofName? t = some s ↔ Spelled foreignLetters s.name t := by
  rw [← toCapitals_eq_iff (plain_name s)]
  constructor
  · intro h
    simpa using List.find?_some h
  · intro h
    rw [ofName?, h]
    cases s <;> rfl

theorem Spelled.isBlank (hothers : others ⊆ foreignLetters) (h : Spelled others name written) :
    ∀ c ∈ written, c.isBlank = false :=
  fun c hc => CodePoint.isBlank_of_apart (h.inRanges hothers c hc) (by decide)

theorem Spelled.ne_nil (h : Spelled others s.name written) : written ≠ [] := by
  rintro rfl
  generalize hname : s.name = name at h
  cases h
  cases s <;> cases hname

private theorem Spelled.not_ofDigits (h : Spelled foreignLetters s.name written) :
    ¬ written.OfDigits := by
  intro hdigits
  obtain ⟨c, rest, rfl⟩ := List.exists_cons_of_ne_nil h.ne_nil
  have hletter := h.inRanges (fun _ hentry => hentry) c List.mem_cons_self
  have hdigit := CodePoint.isDigit_iff.mp (hdigits c List.mem_cons_self)
  exact hletter.not_of_apart (by decide) hdigit

/-! ## Texts -/

theorem isDigits_iff : isDigits t ↔ t ≠ [] ∧ t.OfDigits := by
  simp [isDigits, Text.OfDigits]

/-- A numeral of decimal digits, of at most as many as are read in a number. -/
structure Numbers (s : Severity) (digits : Text) : Prop where
  decimals : digits.OfDecimals
  ne_nil : digits ≠ []
  length_le : digits.length ≤ 4300
  value_eq : Binary64.digitsValue digits = s.toNat

private theorem ofText_eq_ok_iff :
    ofText t = .ok s ↔ Numbers s t.strip ∨ Spelled foreignLetters s.name t.strip := by
  rw [ofText]
  -- Digits of any kind are taken for a numeral, and none of them is a letter of a name.
  by_cases h : isDigits t.strip
  · obtain ⟨hne, hdigits⟩ := isDigits_iff.mp h
    have hread := Numeral.read_eq_ok_iff hdigits hne
    have hnumbers : Numeral.read 10 t.strip = .ok (s.toNat : Int) ↔ Numbers s t.strip := by
      rw [hread, Int.natCast_inj]
      exact ⟨fun ⟨hdecimals, hlength, hvalue⟩ => ⟨hdecimals, hne, hlength, hvalue⟩,
        fun h => ⟨h.decimals, h.length_le, h.value_eq⟩⟩
    have hname : ¬ Spelled foreignLetters s.name t.strip := fun hname => hname.not_ofDigits hdigits
    rw [← hnumbers, or_iff_left hname]
    simp only [h, if_true]
    cases Numeral.read 10 t.strip with
    | ok n => simp [ofInt_eq_ok_iff]
    | error fault => simp
  · have hnumbers : ¬ Numbers s t.strip := fun hnumbers =>
      h (isDigits_iff.mpr ⟨hnumbers.ne_nil, hnumbers.decimals.ofDigits⟩)
    rw [or_iff_right hnumbers, ← ofName?_eq_some_iff]
    simp only [h]
    cases ofName? t.strip <;> simp

/-! ## Data -/

/-- A datum that denotes a severity: its number, as an integer or as a decimal, or a numeral or
its name between blanks. -/
inductive Denotes (others : List (String × Char)) (s : Severity) : Datum → Prop where
  | number : Denotes others s (.int s.toNat)
  | decimal {x : Binary64} (h : x.value? = some (s.toNat : ℚ)) : Denotes others s (.float x)
  | numeral {digits t : Text} (hblanks : Text.Padded CodePoint.isBlank digits t)
      (h : Numbers s digits) : Denotes others s (.text t)
  | name {written t : Text} (hblanks : Text.Padded CodePoint.isBlank written t)
      (h : Spelled others s.name written) : Denotes others s (.text t)

theorem denotes_text_iff (hothers : others ⊆ foreignLetters) :
    Denotes others s (.text t) ↔ Numbers s t.strip ∨ Spelled others s.name t.strip := by
  constructor
  · intro h
    cases h with
    | numeral hblanks h =>
      have hinner := hblanks.trimBoth h.ne_nil fun c hc =>
        CodePoint.isBlank_of_isDigit (h.decimals.ofDigits c hc)
      rw [Text.strip, hinner]
      exact .inl h
    | name hblanks h =>
      rw [Text.strip, hblanks.trimBoth h.ne_nil (h.isBlank hothers)]
      exact .inr h
  · rintro (h | h)
    · exact .numeral (Text.padded_trimBoth _ t) h
    · exact .name (Text.padded_trimBoth _ t) h

private theorem ofDatum_float_eq_ok_iff {x : Binary64} :
    ofDatum (.float x) = .ok s ↔ x.value? = some (s.toNat : ℚ) := by
  have hwhole := Binary64.toInt?_eq_some_iff (x := x) (n := s.toNat)
  rw [Int.cast_natCast] at hwhole
  rw [← hwhole, ofDatum]
  cases x.toInt? with
  | none => simp
  | some n => simp [ofInt_eq_ok_iff]

theorem ofDatum_eq_ok_iff {d : Datum} : ofDatum d = .ok s ↔ Denotes foreignLetters s d := by
  cases d with
  | int n =>
    rw [ofDatum, ofInt_eq_ok_iff]
    constructor
    · rintro rfl
      exact .number
    · intro h
      cases h
      rfl
  | float x =>
    rw [ofDatum_float_eq_ok_iff]
    constructor
    · exact .decimal
    · intro h
      cases h
      assumption
  | text t => rw [ofDatum, ofText_eq_ok_iff, denotes_text_iff fun _ h => h]
  | _ =>
    constructor
    · intro h
      cases h
    · intro h
      cases h

private theorem eq_of_ofDatum_unknown {d e : Datum} (h : ofDatum d = .error (.unknown e)) :
    e = d := by
  have hofInt (n : Int) : ofInt n ≠ .error (.unknown e) := by
    rw [ofInt]
    split
    · exact nofun
    · exact nofun
  cases d with
  | int n => exact absurd h (hofInt n)
  | float x =>
    rw [ofDatum] at h
    split at h
    · exact absurd h (hofInt _)
    · exact (Fault.unknown.inj (Except.error.inj h)).symm
  | text t =>
    simp only [ofDatum, ofText] at h
    split at h
    · split at h
      · exact absurd h (hofInt _)
      · cases h
    · split at h
      · cases h
      · exact (Fault.unknown.inj (Except.error.inj h)).symm
  | _ => exact (Fault.unknown.inj (Except.error.inj h)).symm

variable [Host]

/-- A fault of a datum that stands against every attempt with that datum at its severity. -/
def Fault.Reported (fault : Fault) (d : Datum) : Prop :=
  ∀ entries name, Attempt.severityField.find? entries = some (name, d) →
    (Attempt.ofEntries entries).Reports ⟨[.key name], Attempt.severityProblem fault⟩

private theorem reported_of_error {d : Datum} {fault : Fault} (h : ofDatum d = .error fault) :
    fault.Reported d := by
  intro entries name hfind
  have hfield : (Attempt.severityField.optional .success Attempt.checkSeverity entries).Reports
      ⟨[.key name], Attempt.severityProblem fault⟩ := by
    rw [Field.optional, hfind]
    simp only [Attempt.checkSeverity, h]
    exact (Checked.reports_problem _).within (.key name)
  exact ((hfield.both_left _).both_right _).map _

/-- What is reported has a wording, but for a datum that is nested too deeply to be shown. -/
theorem severityProblem_of_error {d : Datum} {fault : Fault} (h : ofDatum d = .error fault) :
    (∃ message, Attempt.severityProblem fault = .fault message) ∨
      Attempt.severityProblem fault = .interruption .tooDeep ∧
        Host.room .showing < d.opened.levels := by
  cases fault with
  | outOfRange n =>
    left
    simp only [Attempt.severityProblem, Fault.message]
    cases Numeral.write n with
    | ok shown => exact ⟨_, rfl⟩
    | error cause => exact ⟨_, rfl⟩
  | numeral cause => exact .inl ⟨_, rfl⟩
  | unknown e =>
    obtain rfl := eq_of_ofDatum_unknown h
    simp only [Attempt.severityProblem, Fault.message]
    cases hshown : e.shown (Host.room .showing) with
    | ok shown => exact .inl ⟨_, rfl⟩
    | error fault =>
      cases fault with
      | numeral cause => exact .inl ⟨_, rfl⟩
      | tooDeep => exact .inr ⟨rfl, Datum.lt_levels_of_shown hshown⟩

/-- A datum is taken for a severity exactly if it denotes it. Any other datum is a fault that the
check of an attempt reports, with a wording unless the datum has more levels than there is room
for. -/
theorem ofDatum_grammar (d : Datum) :
    (∀ s, ofDatum d = .ok s ↔ Denotes foreignLetters s d) ∧
    ((∃ s, Denotes foreignLetters s d) ∨ ∃ fault, ofDatum d = .error fault ∧ fault.Reported d ∧
      ((∃ message, Attempt.severityProblem fault = .fault message) ∨
        Attempt.severityProblem fault = .interruption .tooDeep ∧
          Host.room .showing < d.opened.levels)) := by
  refine ⟨fun s => ofDatum_eq_ok_iff, ?_⟩
  cases h : ofDatum d with
  | ok s => exact .inl ⟨s, ofDatum_eq_ok_iff.mp h⟩
  | error fault => exact .inr ⟨fault, rfl, reported_of_error h, severityProblem_of_error h⟩

omit [Host] in
/-- The letters of a name are not only those of ASCII, large or small. -/
theorem ofDatum_long_s : ofDatum (.text "ſuccess") = .ok .success ∧
    ¬ Denotes [] .success (.text "ſuccess") := by
  have hstrip : Text.strip "ſuccess" = "ſuccess" := by decide
  refine ⟨rfl, ?_⟩
  rw [denotes_text_iff (List.nil_subset _), hstrip]
  rintro (h | h)
  · exact absurd (h.decimals (.char 'ſ') (by decide)) (by decide)
  · generalize hname : (Severity.success.name : Text) = name at h
    generalize hwritten : ("ſuccess" : Text) = written at h
    cases h with
    | nil => cases hwritten
    | letter hletter _ =>
      cases hwritten
      exact absurd hletter (by decide)
    | other hother _ => cases hother

end Severity

end ConversionCoverage
