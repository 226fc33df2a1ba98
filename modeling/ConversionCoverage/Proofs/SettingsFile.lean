import ConversionCoverage.Host.Usual
import ConversionCoverage.Proofs.LenientSettings
import ConversionCoverage.Proofs.RecordLoading

/-!
# Settings files and mappings

Settings in a file are what a lenient reading makes of its document, and the standard ones for an
empty document. But a document of any value that counts as nothing is taken for an empty mapping, so
that such a document is not refused where its value would be.
-/

namespace ConversionCoverage

namespace Datum

/-- Values that count as nothing, other than an empty mapping and nothing itself. -/
inductive Hollow : Datum → Prop where
  | false : Hollow (.bool false)
  | zero : Hollow (.int 0)
  | zeroFloat (negative : Bool) (exponent : Int) : Hollow (.float (.finite negative 0 exponent))
  | text : Hollow (.text [])
  | bytes : Hollow (.bytes [])
  | list : Hollow (.list [])
  | set : Hollow (.set [])

theorem isPresent_eq_false_iff (d : Datum) :
    d.isPresent = false ↔ d = .null ∨ d = .mapping [] ∨ d.Hollow := by
  constructor
  · intro h
    cases d with
    | null => exact .inl rfl
    | bool b =>
      cases b with
      | true => cases h
      | false => exact .inr (.inr .false)
    | int n =>
      obtain rfl : n = 0 := by simpa [isPresent] using h
      exact .inr (.inr .zero)
    | float x =>
      cases x with
      | nan => cases h
      | infinite negative => cases h
      | finite negative m e =>
        obtain rfl : m = 0 := by simpa [isPresent] using h
        exact .inr (.inr (.zeroFloat negative e))
    | text t =>
      obtain rfl : t = [] := by simpa [isPresent] using h
      exact .inr (.inr .text)
    | bytes bs =>
      obtain rfl : bs = [] := by simpa [isPresent] using h
      exact .inr (.inr .bytes)
    | date d => cases h
    | dateTime t => cases h
    | list items =>
      obtain rfl : items = [] := by simpa [isPresent] using h
      exact .inr (.inr .list)
    | pair a b => cases h
    | set items =>
      obtain rfl : items = [] := by simpa [isPresent] using h
      exact .inr (.inr .set)
    | mapping entries =>
      obtain rfl : entries = [] := by simpa [isPresent] using h
      exact .inr (.inl rfl)
    | enclosing e => cases h
  · rintro (rfl | rfl | h)
    · rfl
    · rfl
    · cases h <;> rfl

end Datum

namespace Settings

/-- The text of a file that may be read is a document of a value. -/
def Document [Host] (tree : FileTree) (path : FilePath) (d : Datum) : Prop :=
  FileTree.Open path ∧ ∃ bytes t, tree.readFile path = .ok bytes ∧
    Utf8.decodeStream pieceSize bytes = .ok t ∧ Yaml.read t = .ok d

section Host

variable [Host] {tree : FileTree} {path : FilePath} {d : Datum}

theorem load_of_document (h : Document tree path d) :
    load tree path = (ofDocument d).mapError .settings := by
  obtain ⟨hopen, bytes, t, hread, hdecode, hyaml⟩ := h
  obtain ⟨l, m, hfind, -⟩ := (FileTree.readFile_eq_ok_iff _ _ _).mp hread
  obtain ⟨e, hentry⟩ := FileTree.lookUp_of_find (hopen .lookUp) hfind
  rw [load, hentry, FileTree.openFile_of_open hopen, hread]
  show (do
    let t ← (Utf8.decodeStream pieceSize bytes).mapError LoadFault.encoding
    let d ← (Yaml.read t).mapError .yaml
    (ofDocument d).mapError .settings) = _
  rw [hdecode]
  show (do
    let d ← (Yaml.read t).mapError LoadFault.yaml
    (ofDocument d).mapError .settings) = _
  rw [hyaml]
  rfl

private theorem lenient_empty : lenient (.mapping []) = .ok standard := rfl

private theorem ofDocument_of_present (h : d.isPresent = true) : ofDocument d = lenient d := by
  rw [ofDocument, if_pos h]

private theorem ofDocument_of_absent (h : d.isPresent = false) : ofDocument d = .ok standard := by
  rw [ofDocument, h]
  exact lenient_empty

theorem lenient_of_not_mapping (h : ∀ entries, d ≠ .mapping entries) :
    lenient d = .error (.notMapping d.kind) := by
  cases d with
  | mapping entries => exact absurd rfl (h entries)
  | _ => rfl

private theorem lenient_of_hollow (h : d.Hollow) : lenient d = .error (.notMapping d.kind) := by
  apply lenient_of_not_mapping
  rintro entries rfl
  cases h

/-- A document is read as its value, but for nothing and for values that count as nothing: these
stand for the standard settings, although a lenient reading refuses them all. -/
theorem ofDocument_cases (d : Datum) :
    (ofDocument d = lenient d ∧ d ≠ .null ∧ ¬ d.Hollow) ∨
      (ofDocument d = .ok standard ∧ lenient d = .error (.notMapping d.kind) ∧
        (d = .null ∨ d.Hollow)) := by
  cases hpresent : d.isPresent with
  | true =>
    refine .inl ⟨ofDocument_of_present hpresent, ?_⟩
    rw [← not_or]
    intro h
    have habsent := (Datum.isPresent_eq_false_iff d).mpr (h.imp_right .inr)
    cases hpresent.symm.trans habsent
  | false =>
    rcases (Datum.isPresent_eq_false_iff d).mp hpresent with rfl | rfl | hhollow
    · exact .inr ⟨rfl, rfl, .inl rfl⟩
    · exact .inl ⟨rfl, nofun, nofun⟩
    · exact .inr ⟨ofDocument_of_absent hpresent, lenient_of_hollow hhollow, .inr hhollow⟩

/-- What a settings file gives where its text is a document. It agrees with a lenient reading of the
document unless this is a value that counts as nothing, and refuses all others that are neither
nothing nor mappings. -/
theorem load_document (h : Document tree path d) :
    (d = .null → load tree path = .ok standard) ∧
    (d ≠ .null → (load tree path = (lenient d).mapError .settings ↔ ¬ d.Hollow)) ∧
    (d.Hollow → load tree path = .ok standard) ∧
    (d ≠ .null → (∀ entries, d ≠ .mapping entries) → ¬ d.Hollow →
      load tree path = .error (.settings (.notMapping d.kind))) := by
  rw [load_of_document h]
  rcases ofDocument_cases d with ⟨hsame, hnull, hhollow⟩ | ⟨hstandard, hrefused, hnothing⟩
  · rw [hsame]
    refine ⟨fun h => absurd h hnull, fun _ => iff_of_true rfl hhollow,
      fun h => absurd h hhollow, ?_⟩
    intro _ hmapping _
    rw [lenient_of_not_mapping hmapping]
    rfl
  · rw [hstandard, hrefused]
    refine ⟨fun _ => rfl, ?_, fun _ => rfl, ?_⟩
    · intro hnull
      exact iff_of_false nofun fun hhollow => hhollow (hnothing.resolve_left hnull)
    · intro hnull _ hhollow
      exact absurd (hnothing.resolve_left hnull) hhollow

theorem read_of_root {t : Text} {tokens : List Yaml.Token} {root : Yaml.Node}
    (hholds : Host.holds t = true) (htokens : Yaml.Token.ofText t.normalizeBreaks = (tokens, none))
    (hroot : Yaml.Node.ofTokens tokens none = .ok (some root)) :
    Yaml.read t = root.toDatum := by
  rw [Yaml.read, hholds, htokens]
  simp only [hroot]
  rfl

end Host

/-- A tree with a settings file. -/
def withFile (bytes : List UInt8) : FileTree := ⟨[(["c.yaml"], .file 0o644 bytes)]⟩

open scoped Host in
theorem load_document_word : Document (withFile [97]) ("c.yaml" : Text) (.text "a") ∧
    load (withFile [97]) ("c.yaml" : Text) = .error (.settings (.notMapping "str")) := by
  have htokens : Yaml.Token.ofText ("a" : Text).normalizeBreaks = ([.scalar "a" true], none) := rfl
  have hyaml : Yaml.read "a" = .ok (.text "a") := by
    have hroot : Yaml.Node.ofTokens [.scalar "a" true] none = .ok (some (.scalar .str "a")) := rfl
    rw [read_of_root rfl htokens hroot, Yaml.Node.toDatum,
      Yaml.Node.value]
    rfl
  have hdocument : Document (withFile [97]) ("c.yaml" : Text) (.text "a") :=
    ⟨fun _ => rfl, [97], "a", rfl, rfl, hyaml⟩
  refine ⟨hdocument, (load_document hdocument).2.2.2 ?_ ?_ ?_⟩
  · intro h
    cases h
  · intro entries h
    cases h
  · intro h
    cases h

open scoped Host in
/-- An empty list in a file is taken for the standard settings, and refused as a value. -/
theorem load_emptyList : Document (withFile [91, 93]) ("c.yaml" : Text) (.list []) ∧
    load (withFile [91, 93]) ("c.yaml" : Text) = .ok standard ∧
    lenient (.list []) = .error (.notMapping "list") := by
  have htokens : Yaml.Token.ofText ("[]" : Text).normalizeBreaks =
      ([.flowSequenceStart, .flowSequenceEnd], none) := rfl
  have hyaml : Yaml.read "[]" = .ok (.list []) := by
    have hroot : Yaml.Node.ofTokens [.flowSequenceStart, .flowSequenceEnd] none =
        .ok (some (.sequence .seq [])) := rfl
    rw [read_of_root rfl htokens hroot, Yaml.Node.toDatum,
      Yaml.Node.value, Yaml.Node.values]
    rfl
  have hdocument : Document (withFile [91, 93]) ("c.yaml" : Text) (.list []) :=
    ⟨fun _ => rfl, [91, 93], "[]", rfl, rfl, hyaml⟩
  exact ⟨hdocument, load_of_document hdocument, rfl⟩

end Settings

end ConversionCoverage
