import ConversionCoverage.Proofs.LineSeams
import ConversionCoverage.Proofs.ReportFiles

/-!
# Which indentations keep reports readable

The indentation of the settings is written as it is. If it is made of blanks, the reports on
languages and on the provider are documents. If it holds anything else, the report on the provider
is none: either the first line of its object begins with no name, or some line with a quote follows
one that ends in a percentage.
-/

namespace ConversionCoverage

open Text

namespace Json

/-! ## What stands in a document -/

private theorem inner_of_asciiDigit? {d : CodePoint} (hd : d.asciiDigit?.isSome) : Inner d := by
  intro hmem
  obtain ⟨c, hc, rfl⟩ := List.mem_map.mp hmem
  have hall : outerChars.all (fun c => (CodePoint.char c).asciiDigit?.isNone) = true := by decide
  have hnone := List.all_eq_true.mp hall c hc
  rw [Option.isNone_iff_eq_none.mp hnone] at hd
  cases hd

theorem exists_concat_of_isDigits {t : Text} (ht : t.IsDigits) (hne : t ≠ []) :
    ∃ first d, t = first ++ [d] ∧ Inner d := by
  rcases List.eq_nil_or_concat t with rfl | ⟨first, d, rfl⟩
  · exact absurd rfl hne
  · refine ⟨first, d, List.concat_eq_append, inner_of_asciiDigit? (ht d ?_)⟩
    simp

private theorem exists_concat_of_numeral {t : Text} {digits : Nat} {exponent : Int}
    (h : Binary64.Numeral t digits exponent) : ∃ first d, t = first ++ [d] ∧ Inner d := by
  obtain ⟨whole, fraction, e?, hwhole, hfraction, hfloat, rfl, -⟩ := h
  cases e? with
  | none =>
    have hne : fraction ≠ [] := fun h => hfloat ⟨h, rfl⟩
    obtain ⟨first, d, hfirst, hd⟩ := exists_concat_of_isDigits hfraction hne
    refine ⟨whole ++ .char '.' :: first, d, ?_, hd⟩
    rw [fractionPart, if_neg hne, hfirst, exponentText]
    simp
  | some e =>
    obtain ⟨first, d, hfirst, hd⟩ :=
      exists_concat_of_isDigits (isDigits_zeroPadded 2 e.natAbs) (zeroPadded_two_ne_nil _)
    refine ⟨whole ++ (fractionPart fraction ++
      CodePoint.char 'e' :: (if e < 0 then .char '-' else .char '+') :: first), d, ?_, hd⟩
    rw [exponentText, Binary64.exponentPart, hfirst]
    simp

theorem exists_printFloat_concat {x : Binary64} (hx : x.Stored) :
    ∃ first d, printFloat x = first ++ [d] ∧ Inner d := by
  cases x with
  | nan => exact ⟨"Na", 'N', rfl, by decide⟩
  | infinite negative =>
    cases negative with
    | true => exact ⟨"-Infinit", 'y', rfl, by decide⟩
    | false => exact ⟨"Infinit", 'y', rfl, by decide⟩
  | finite negative m e =>
    show ∃ first d, Binary64.toText (.finite negative m e) = first ++ [d] ∧ Inner d
    by_cases hm : m = 0
    · refine ⟨Binary64.signPart negative ++ "0.", '0', ?_, by decide⟩
      rw [Binary64.toText, if_pos hm, List.append_assoc]
      rfl
    · obtain ⟨t, digits, exponent, htext, hnumeral, -⟩ := Binary64.toText_eq negative hx hm
      obtain ⟨first, d, rfl, hd⟩ := exists_concat_of_numeral hnumeral
      exact ⟨Binary64.signPart negative ++ first, d, by rw [htext, List.append_assoc], hd⟩

private theorem suffix_printMembers (layout : Layout) (k : Nat) {members : List (Text × Json)}
    {name : Text} {value : Json} (h : (name, value) ∈ members) :
    ∃ more, print layout (k + 1) value ++ printMembers layout k more <:+
      printMembers layout k members := by
  induction members with
  | nil => cases h
  | cons member rest ih =>
    obtain ⟨first, firstValue⟩ := member
    rw [printMembers, List.append_assoc]
    rcases List.mem_cons.mp h with heq | h
    · cases heq
      exact ⟨rest, List.suffix_append _ _⟩
    · obtain ⟨more, hmore⟩ := ih h
      refine ⟨more, hmore.trans ?_⟩
      rw [← List.append_assoc]
      exact List.suffix_append _ _

theorem suffix_print_object (layout : Layout) (k : Nat) {members : List (Text × Json)} {name : Text}
    {value : Json} (h : (name, value) ∈ members) :
    ∃ more, print layout (k + 1) value ++ printMembers layout k more <:+
      print layout k (.object members) := by
  cases members with
  | nil => cases h
  | cons member rest =>
    obtain ⟨first, firstValue⟩ := member
    rw [print, List.append_assoc]
    rcases List.mem_cons.mp h with heq | h
    · cases heq
      exact ⟨rest, List.suffix_append _ _⟩
    · obtain ⟨more, hmore⟩ := suffix_printMembers layout k h
      refine ⟨more, hmore.trans ?_⟩
      rw [← List.append_assoc]
      exact List.suffix_append _ _

/-! ## Indentations that are not blank -/

theorem exists_first {indent : Text} (h : ¬ ∀ c ∈ indent, isBlank c) :
    ∃ c more, isBlank c = false ∧ ∀ rest, skipBlanks (indent ++ rest) = c :: (more ++ rest) := by
  induction indent with
  | nil => exact absurd (fun _ hc => nomatch hc) h
  | cons c indent ih =>
    cases hc : isBlank c with
    | false =>
      refine ⟨c, indent, hc, fun rest => ?_⟩
      rw [List.cons_append, skipBlanks, List.dropWhile_cons_of_neg (by simp [hc])]
    | true =>
      have hrest : ¬ ∀ b ∈ indent, isBlank b := by
        intro hblank
        apply h
        intro b hb
        rcases List.mem_cons.mp hb with rfl | hb
        · exact hc
        · exact hblank b hb
      obtain ⟨first, more, hfirst, hskip⟩ := ih hrest
      refine ⟨first, more, hfirst, fun rest => ?_⟩
      rw [← hskip rest, List.cons_append, skipBlanks, List.dropWhile_cons_of_pos hc]
      rfl

private theorem skipBlanks_ne_nil {t : Text} {c : CodePoint} (hmem : c ∈ t)
    (hc : isBlank c = false) :
    skipBlanks t ≠ [] := by
  intro hempty
  have hall := List.dropWhile_eq_nil_iff.mp hempty c hmem
  rw [hc] at hall
  cases hall

theorem lineStart_one (indent : Text) :
    (Layout.indented indent).lineStart 1 = .char '\n' :: indent := by
  simp [Layout.indented, Layout.lineStart, repeated]

theorem suffix_print_share (layout : Layout) (k number total : Nat) (rest : Text) :
    printFloat (Percentage.rate number total) ++ (layout.lineStart k ++ .char '\x7d' :: rest) <:+
      print layout k (Share.of number total).toJson ++ rest := by
  let front : Text := "\x7b" ++ layout.lineStart (k + 1) ++ printText layout.ascii "Number" ++
    ": " ++ ofInt number ++ layout.separator (k + 1) ++ printText layout.ascii "Pct" ++ ": "
  have hclose : ("\x7d" : Text) ++ rest = .char '\x7d' :: rest := rfl
  have hprint : print layout k (Share.of number total).toJson ++ rest =
      front ++ (printFloat (Percentage.rate number total) ++
        (layout.lineStart k ++ .char '\x7d' :: rest)) := by
    simp only [Share.toJson, Share.of, Json.member, print, printMembers, front, List.append_assoc,
      hclose]
  rw [hprint]
  exact List.suffix_append _ _

/-- Where an object has a share, a line ends with a percentage and the next one begins with the
indentation. -/
theorem seam_share {indent : Text} {number total : Nat} {members : List (Text × Json)} {name : Text}
    (h : (name, (Share.of number total).toJson) ∈ members) :
    ∃ d rest, Inner d ∧ seam d (indent ++ rest) <:+
      (Json.object members).toText (.indented indent) := by
  obtain ⟨more, hmore⟩ := suffix_print_object (.indented indent) 0 h
  obtain ⟨first, d, hpct, hd⟩ := exists_printFloat_concat (Binary64.stored_rate number total)
  have hshare := suffix_print_share (.indented indent) 1 number total
    (printMembers (.indented indent) 0 more)
  rw [lineStart_one, hpct, List.append_assoc] at hshare
  refine ⟨d, .char '\x7d' :: printMembers (.indented indent) 0 more, hd, ?_⟩
  exact (List.suffix_append first _).trans (hshare.trans hmore)

/-- An object with a share is read only from blanks. -/
theorem readWithin_object_error [Host] {indent : Text} (hindent : ¬ ∀ c ∈ indent, isBlank c)
    {maxDigits number total : Nat} {members : List (Text × Json)} {name : Text}
    (h : (name, (Share.of number total).toJson) ∈ members) :
    ∃ fault, readWithin maxDigits ((Json.object members).toText (.indented indent)) =
      .error fault := by
  apply readWithin_eq_error
  obtain ⟨c, more, hc, hskip⟩ := exists_first hindent
  by_cases hquote : c = '"'
  · obtain ⟨d, rest, hd, hseam⟩ := @seam_share indent number total members name h
    have hnext : ∃ post, skipBlanks (indent ++ rest) = .char '"' :: post :=
      ⟨_, (hskip rest).trans (by rw [hquote])⟩
    exact readDocument_seam hd hnext hseam
  · cases members with
    | nil => cases h
    | cons member others =>
      obtain ⟨first, value⟩ := member
      let rest : Text := printText false first ++ (": " ++ (print (.indented indent) 1 value ++
        printMembers (.indented indent) 0 others))
      have htext : (Json.object ((first, value) :: others)).toText (.indented indent) =
          .char '\x7b' :: .char '\n' :: (indent ++ rest) := by
        rw [toText, print, lineStart_one]
        simp only [List.append_assoc]
        rfl
      have hname : CodePoint.char '"' ∈ more ++ rest := by
        apply List.mem_append_right
        exact List.mem_append_left _ List.mem_cons_self
      rw [htext]
      exact readDocument_object (hskip rest) hquote fun _ => skipBlanks_ne_nil hname rfl

end Json

end ConversionCoverage
