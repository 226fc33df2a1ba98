import ConversionCoverage.Host.Usual
import ConversionCoverage.Proofs.Nesting
import ConversionCoverage.Proofs.PlainData
import ConversionCoverage.Settings.File

/-!
# What settings are read leniently

Each field of a mapping is read on its own, and settings are what the fields give. Where they give
none, a value is badly written or out of its range and a command says so, but for values that are
overlooked: data nested too deeply to be written, more blanks than there can be, and permission bits
that are no numeral at all.
-/

namespace ConversionCoverage

/-- What stands for no number and is not written as one either. -/
inductive Datum.NoNumeral : Datum → Prop where
  | null : NoNumeral .null
  | infinite (negative : Bool) : NoNumeral (.float (.infinite negative))
  | date (d : Date) : NoNumeral (.date d)
  | dateTime (t : DateTime) : NoNumeral (.dateTime t)
  | list (items : List Datum) : NoNumeral (.list items)
  | pair (a b : Datum) : NoNumeral (.pair a b)
  | set (items : List Datum) : NoNumeral (.set items)
  | mapping (entries : List (Datum × Datum)) : NoNumeral (.mapping entries)
  | enclosing (opened : Datum) : NoNumeral (.enclosing opened)

/-- What takes more levels than there are to be written as text. -/
def Datum.TooDeep [Host] (d : Datum) : Prop := d.toText (Host.room .showing) = .error .tooDeep

theorem Datum.TooDeep.lt_levels [Host] {d : Datum} (h : d.TooDeep) :
    Host.room .showing < d.opened.levels := by
  rw [TooDeep, toText.eq_def] at h
  split at h
  · cases h
  · cases h
  · cases h
  · exact lt_levels_of_shown h

/-- What stands for no indentation and is not reported either: a number of blanks that has no place
among signed numbers of 64 bits, or for which there is no memory, or data nested too deeply. -/
inductive Datum.NoIndentation [Host] : Datum → Prop where
  | tooMany {n : Int} (h : Datum.fitsInt64 n = false) : NoIndentation (.int n)
  | noMemory {n : Int} (h : Host.memory < n.toNat) : NoIndentation (.int n)
  | tooDeep {d : Datum} (h : d.TooDeep) : NoIndentation d

namespace Settings

variable {entries : List (Datum × Datum)}

/-! ## Single values -/

/-- Something fails in a way that the command line does not report. -/
def Overlooks {α : Type} (x : Except Fault α) : Prop :=
  ∃ fault, x = .error fault ∧ (LoadFault.settings fault).isReported = false

theorem not_overlooks_ok {α : Type} (a : α) : ¬ Overlooks (.ok a : Except Fault α) := nofun

theorem overlooks_error_iff {α : Type} {fault : Fault} :
    Overlooks (.error fault : Except Fault α) ↔ fault.concernsValue = false := by
  constructor
  · rintro ⟨_, ⟨⟩, h⟩
    exact h
  · intro h
    exact ⟨fault, rfl, h⟩

theorem not_overlooks_mapError {ε α : Type} {x : Except ε α} {kind : ε → Fault}
    (h : ∀ cause, (kind cause).concernsValue = true) : ¬ Overlooks (x.mapError kind) := by
  cases x with
  | ok a => exact not_overlooks_ok a
  | error cause =>
    show ¬ Overlooks (.error (kind cause))
    rw [overlooks_error_iff, h]
    exact nofun

theorem overlooks_bind_iff {α β : Type} {x : Except Fault α} {f : α → Except Fault β} :
    Overlooks (x >>= f) ↔ Overlooks x ∨ ∃ a, x = .ok a ∧ Overlooks (f a) := by
  cases x with
  | ok a => simp [bind, Except.bind, not_overlooks_ok]
  | error fault => simp [bind, Except.bind, overlooks_error_iff]

private theorem overlooks_lenientMode_iff (d : Datum) :
    Overlooks (lenientMode d) ↔ d.NoNumeral := by
  cases d with
  | null => exact iff_of_true ⟨_, rfl, rfl⟩ .null
  | bool b => exact iff_of_false nofun nofun
  | int n => exact iff_of_false nofun nofun
  | float x =>
    cases x with
    | nan => exact iff_of_false (overlooks_error_iff.not.mpr nofun) nofun
    | infinite negative => exact iff_of_true ⟨_, rfl, rfl⟩ (.infinite negative)
    | finite negative m e => exact iff_of_false nofun nofun
  | text t => exact iff_of_false (not_overlooks_mapError fun _ => rfl) nofun
  | bytes bs => exact iff_of_false (not_overlooks_mapError fun _ => rfl) nofun
  | date d => exact iff_of_true ⟨_, rfl, rfl⟩ (.date d)
  | dateTime t => exact iff_of_true ⟨_, rfl, rfl⟩ (.dateTime t)
  | list items => exact iff_of_true ⟨_, rfl, rfl⟩ (.list items)
  | pair a b => exact iff_of_true ⟨_, rfl, rfl⟩ (.pair a b)
  | set items => exact iff_of_true ⟨_, rfl, rfl⟩ (.set items)
  | mapping entries => exact iff_of_true ⟨_, rfl, rfl⟩ (.mapping entries)
  | enclosing opened => exact iff_of_true ⟨_, rfl, rfl⟩ (.enclosing opened)

theorem overlooks_writtenText_iff [Host] (d : Datum) : Overlooks (writtenText d) ↔ d.TooDeep := by
  rw [writtenText, Datum.TooDeep]
  cases d.toText (Host.room .showing) with
  | ok t => exact iff_of_false (not_overlooks_ok _) nofun
  | error fault =>
    show Overlooks (.error (.unwritable fault)) ↔ _
    rw [overlooks_error_iff]
    cases fault with
    | numeral cause => exact iff_of_false nofun nofun
    | tooDeep => exact iff_of_true rfl rfl

private theorem overlooks_blanks_iff [Host] (n : Int) :
    Overlooks (blanks n) ↔ Datum.fitsInt64 n = false ∨ Host.memory < n.toNat := by
  have hfits : Datum.fitsInt64 n = false ↔
      ¬ (-0x8000000000000000 ≤ n ∧ n < 0x8000000000000000) := by
    simp [Datum.fitsInt64]
  rw [blanks, hfits]
  split
  · rename_i h
    exact iff_of_true ⟨_, rfl, rfl⟩ (.inl h)
  · rename_i h
    rw [or_iff_right h]
    split
    · rename_i hmemory
      exact iff_of_true ⟨_, rfl, rfl⟩ hmemory
    · rename_i hmemory
      exact iff_of_false (not_overlooks_ok _) hmemory

theorem not_tooDeep_of_room [Host] {d : Datum} (h : ∀ room, d.quoted (room + 1) ≠ .error .tooDeep)
    (hopened : d.opened = d) (htext : ∀ room, d.toText room = d.shown room) : ¬ d.TooDeep := by
  obtain ⟨room, hroom⟩ := Host.exists_room .showing
  rw [Datum.TooDeep, htext, Datum.shown, hopened, hroom]
  exact h (room + 15)

private theorem overlooks_lenientIndent_iff [Host] (d : Datum) :
    Overlooks (lenientIndent d) ↔ d.NoIndentation := by
  have hint (n : Int) : ¬ (Datum.int n).TooDeep := by
    refine not_tooDeep_of_room (fun room => ?_) rfl fun _ => rfl
    rw [Datum.quoted]
    cases Numeral.write n <;> exact nofun
  have hbool (b : Bool) : ¬ (Datum.bool b).TooDeep := by
    refine not_tooDeep_of_room (fun room => ?_) rfl fun _ => rfl
    cases b <;> exact nofun
  have hother {d : Datum} (hwritten : lenientIndent d = writtenText d) (hd : ∀ n, d ≠ .int n) :
      Overlooks (lenientIndent d) ↔ d.NoIndentation := by
    rw [hwritten, overlooks_writtenText_iff]
    constructor
    · exact .tooDeep
    · intro h
      cases h with
      | tooMany => exact absurd rfl (hd _)
      | noMemory => exact absurd rfl (hd _)
      | tooDeep h => exact h
  cases d with
  | int n =>
    rw [lenientIndent, overlooks_blanks_iff]
    constructor
    · rintro (h | h)
      · exact .tooMany h
      · exact .noMemory h
    · intro h
      cases h with
      | tooMany h => exact .inl h
      | noMemory h => exact .inr h
      | tooDeep h => exact absurd h (hint n)
  | bool b =>
    refine iff_of_false (not_overlooks_ok _) ?_
    intro h
    cases h with
    | tooDeep h => exact hbool b h
  | _ => exact hother rfl nofun

theorem checkMode_int_iff {n : Int} {m : Mode} : checkMode (.int n) = .ok m ↔ n = m.val := by
  rw [checkMode, Datum.asInt]
  simp only
  split
  · rename_i hbelow
    refine iff_of_false nofun ?_
    omega
  · split
    · rename_i hwithin
      rw [Except.ok.injEq, Fin.ext_iff]
      simp only
      omega
    · refine iff_of_false nofun ?_
      omega

/-! ## Single fields -/

theorem lenientField_eq_ok {α : Type} {name : Text} {reader : Datum → Except Fault α}
    {wrap : α → Datum} {found : List (Datum × Datum)}
    (h : lenientField name reader wrap entries = .ok found) :
    Datum.field? name entries = none ∧ found = [] ∨
      ∃ d a, Datum.field? name entries = some d ∧ reader d = .ok a ∧
        found = [(.text name, wrap a)] := by
  unfold lenientField at h
  split at h
  · rename_i hnone
    cases h
    exact .inl ⟨hnone, rfl⟩
  · rename_i d hsome
    cases hread : reader d with
    | error fault =>
      rw [hread] at h
      cases h
    | ok a =>
      rw [hread] at h
      cases h
      exact .inr ⟨d, a, hsome, hread, rfl⟩

private theorem overlooks_lenientField_iff {α : Type} {name : Text}
    {reader : Datum → Except Fault α}
    {wrap : α → Datum} : Overlooks (lenientField name reader wrap entries) ↔
      ∃ d, Datum.field? name entries = some d ∧ Overlooks (reader d) := by
  unfold lenientField
  cases Datum.field? name entries with
  | none => exact iff_of_false (not_overlooks_ok _) nofun
  | some d =>
    simp only [Option.some.injEq, exists_eq_left', overlooks_bind_iff]
    apply or_iff_left
    rintro ⟨a, -, h⟩
    exact not_overlooks_ok _ h

/-- The value of a field can be read, if there is one. -/
def Readable {α : Type} (name : Text) (reader : Datum → Except Fault α)
    (entries : List (Datum × Datum)) : Prop :=
  ∀ d, Datum.field? name entries = some d → ∃ a, reader d = .ok a

theorem exists_lenientField_iff {α : Type} {name : Text} {reader : Datum → Except Fault α}
    {wrap : α → Datum} : (∃ found, lenientField name reader wrap entries = .ok found) ↔
      Readable name reader entries := by
  unfold lenientField Readable
  cases Datum.field? name entries with
  | none => exact iff_of_true ⟨[], rfl⟩ nofun
  | some d =>
    simp only [Option.some.injEq, forall_eq']
    cases reader d with
    | ok a => exact iff_of_true ⟨_, rfl⟩ ⟨a, rfl⟩
    | error fault => exact iff_of_false nofun nofun

/-- A field is overlooked, or it can be read and something after it is. -/
theorem overlooks_field_bind_iff {α β : Type} {name : Text} {reader : Datum → Except Fault α}
    {wrap : α → Datum} {later : List (Datum × Datum) → Except Fault β} {P : Prop}
    (h : ∀ part, Overlooks (later part) ↔ P) :
    Overlooks (lenientField name reader wrap entries >>= later) ↔
      (∃ d, Datum.field? name entries = some d ∧ Overlooks (reader d)) ∨
        Readable name reader entries ∧ P := by
  rw [overlooks_bind_iff, overlooks_lenientField_iff, ← @exists_lenientField_iff _ _ _ _ wrap]
  simp only [h, exists_and_right]

/-- A field gives a value: the one that is read, or the usual one where there is none. -/
def Gives {α : Type} (name : Text) (reader : Datum → Except Fault α)
    (entries : List (Datum × Datum)) (usual a : α) : Prop :=
  Datum.field? name entries = none ∧ a = usual ∨
    ∃ d, Datum.field? name entries = some d ∧ reader d = .ok a

theorem Gives.readable {α : Type} {name : Text} {reader : Datum → Except Fault α} {usual a : α}
    (h : Gives name reader entries usual a) : Readable name reader entries := by
  intro d hd
  rcases h with ⟨hnone, -⟩ | ⟨e, hsome, hread⟩
  · rw [hnone] at hd
    cases hd
  · rw [hsome] at hd
    cases hd
    exact ⟨a, hread⟩

theorem field?_lenientField {α : Type} {name other : Text} {reader : Datum → Except Fault α}
    {wrap : α → Datum} {found : List (Datum × Datum)}
    (h : lenientField name reader wrap entries = .ok found) (hne : name ≠ other) :
    Datum.field? other found = none := by
  rcases lenientField_eq_ok h with ⟨-, rfl⟩ | ⟨d, a, -, -, rfl⟩
  · rfl
  · simp [Datum.field?, hne]

section Optional

variable {α β : Type} (field : Field) {reader : Datum → Except Fault α} {wrap : α → Datum}
  {check : Datum → Checked β} (usual b : β) {found : List (Datum × Datum)}

theorem optional_iff (hfield : field.plain = field.wire)
    (hfound : ∃ part, lenientField field.wire reader wrap entries = .ok part ∧
      Datum.field? field.wire found = Datum.field? field.wire part) :
    field.optional usual check found = .ok b ↔
      Datum.field? field.wire entries = none ∧ b = usual ∨
        ∃ d a, Datum.field? field.wire entries = some d ∧ reader d = .ok a ∧
          check (wrap a) = .ok b := by
  obtain ⟨part, hpart, hfound⟩ := hfound
  rw [Field.optional, Field.find?, hfield, hfound]
  rcases lenientField_eq_ok hpart with ⟨hnone, rfl⟩ | ⟨d, a, hsome, hread, rfl⟩
  · rw [hnone]
    simp [Datum.field?, eq_comm]
  · rw [hsome]
    simp [Datum.field?, hread, Checked.within_eq_ok_iff]

/-- If the schema takes the values of some form and no others, then a field gives what it makes of
it. -/
theorem optional_iff_gives (hfield : field.plain = field.wire) {form : β → α}
    (hform : Function.Injective form) (hcheck : ∀ a b, check (wrap a) = .ok b ↔ a = form b)
    (hfound : ∃ part, lenientField field.wire reader wrap entries = .ok part ∧
      Datum.field? field.wire found = Datum.field? field.wire part) :
    field.optional usual check found = .ok b ↔
      Gives field.wire reader entries (form usual) (form b) := by
  rw [optional_iff field usual b hfield hfound, Gives, hform.eq_iff]
  simp [hcheck]

end Optional

/-! ## Whole mappings -/

section Host

variable [Host]

/-- The fields of a mapping give settings. -/
structure Reads (entries : List (Datum × Datum)) (s : Settings) : Prop where
  outputDir : Gives "output_dir" writtenText entries standard.outputDir s.outputDir
  indent : Gives "indent" lenientIndent entries standard.indent s.indent
  dirMode : Gives "dir_mode" lenientMode entries standard.dirMode.val s.dirMode.val
  fileMode : Gives "file_mode" lenientMode entries standard.fileMode.val s.fileMode.val
  topErrors : Datum.field? "top_errors" entries = none ∧ s.topErrors = none ∨
    ∃ d, Datum.field? "top_errors" entries = some d ∧ checkCap d = .ok s.topErrors

omit [Host] in
theorem ofEntries_eq_ok_iff {found : List (Datum × Datum)} {s : Settings} :
    ofEntries found = .ok s ↔
      outputDirField.optional standard.outputDir Datum.asText found = .ok s.outputDir ∧
        indentField.optional standard.indent Datum.asText found = .ok s.indent ∧
          dirModeField.optional standard.dirMode checkMode found = .ok s.dirMode ∧
            fileModeField.optional standard.fileMode checkMode found = .ok s.fileMode ∧
              topErrorsField.optional standard.topErrors checkCap found = .ok s.topErrors := by
  rw [ofEntries, Checked.map_eq_ok_iff]
  simp only [Prod.exists, Checked.both_eq_ok_iff]
  constructor
  · rintro ⟨outputDir, indent, dirMode, fileMode, topErrors, h, rfl⟩
    exact h
  · intro h
    exact ⟨_, _, _, _, _, h, rfl⟩

theorem field?_of_lenientEntries {found : List (Datum × Datum)}
    (h : lenientEntries entries = .ok found) :
    (∃ part, lenientField "output_dir" writtenText .text entries = .ok part ∧
      Datum.field? "output_dir" found = Datum.field? "output_dir" part) ∧
    (∃ part, lenientField "indent" lenientIndent .text entries = .ok part ∧
      Datum.field? "indent" found = Datum.field? "indent" part) ∧
    (∃ part, lenientField "dir_mode" lenientMode .int entries = .ok part ∧
      Datum.field? "dir_mode" found = Datum.field? "dir_mode" part) ∧
    (∃ part, lenientField "file_mode" lenientMode .int entries = .ok part ∧
      Datum.field? "file_mode" found = Datum.field? "file_mode" part) ∧
    ∃ part, lenientField "top_errors" .ok id entries = .ok part ∧
      Datum.field? "top_errors" found = Datum.field? "top_errors" part := by
  obtain ⟨outputDir, houtputDir, h⟩ := Checked.bind_eq_ok_iff.mp h
  obtain ⟨indent, hindent, h⟩ := Checked.bind_eq_ok_iff.mp h
  obtain ⟨dirMode, hdirMode, h⟩ := Checked.bind_eq_ok_iff.mp h
  obtain ⟨fileMode, hfileMode, h⟩ := Checked.bind_eq_ok_iff.mp h
  obtain ⟨topErrors, htopErrors, h⟩ := Checked.bind_eq_ok_iff.mp h
  obtain rfl := Except.ok.inj h
  refine ⟨⟨outputDir, houtputDir, ?_⟩, ⟨indent, hindent, ?_⟩, ⟨dirMode, hdirMode, ?_⟩,
    ⟨fileMode, hfileMode, ?_⟩, topErrors, htopErrors, ?_⟩ <;>
  simp (disch := decide) only [Datum.field?_append, field?_lenientField houtputDir,
    field?_lenientField hindent, field?_lenientField hdirMode, field?_lenientField hfileMode,
    field?_lenientField htopErrors, Option.none_or, Option.or_none]

/-- The schema accepts what the fields give, and nothing else. -/
theorem ofEntries_iff_reads {found : List (Datum × Datum)} (h : lenientEntries entries = .ok found)
    (s : Settings) : ofEntries found = .ok s ↔ Reads entries s := by
  obtain ⟨houtputDir, hindent, hdirMode, hfileMode, htopErrors⟩ := field?_of_lenientEntries h
  have htext : ∀ a b : Text, Datum.asText (.text a) = .ok b ↔ a = b := by
    simp [Datum.asText]
  have hmode : Function.Injective fun m : Mode => (m.val : Int) := by
    intro m n hmn
    exact Fin.ext (Int.ofNat.inj hmn)
  rw [ofEntries_eq_ok_iff,
    optional_iff_gives outputDirField _ _ rfl Function.injective_id htext houtputDir,
    optional_iff_gives indentField _ _ rfl Function.injective_id htext hindent,
    optional_iff_gives dirModeField _ _ rfl hmode (fun _ _ => checkMode_int_iff) hdirMode,
    optional_iff_gives fileModeField _ _ rfl hmode (fun _ _ => checkMode_int_iff) hfileMode,
    optional_iff topErrorsField _ _ rfl htopErrors]
  simp only [Except.ok.injEq, id, exists_and_left, exists_eq_left']
  constructor
  · rintro ⟨houtputDir, hindent, hdirMode, hfileMode, htopErrors⟩
    exact ⟨houtputDir, hindent, hdirMode, hfileMode, htopErrors⟩
  · intro h
    exact ⟨h.outputDir, h.indent, h.dirMode, h.fileMode, h.topErrors⟩

private theorem exists_lenientEntries_iff : (∃ found, lenientEntries entries = .ok found) ↔
    Readable "output_dir" writtenText entries ∧ Readable "indent" lenientIndent entries ∧
      Readable "dir_mode" lenientMode entries ∧ Readable "file_mode" lenientMode entries := by
  constructor
  · rintro ⟨found, h⟩
    obtain ⟨⟨_, houtputDir, -⟩, ⟨_, hindent, -⟩, ⟨_, hdirMode, -⟩, ⟨_, hfileMode, -⟩, -⟩ :=
      field?_of_lenientEntries h
    exact ⟨exists_lenientField_iff.mp ⟨_, houtputDir⟩, exists_lenientField_iff.mp ⟨_, hindent⟩,
      exists_lenientField_iff.mp ⟨_, hdirMode⟩, exists_lenientField_iff.mp ⟨_, hfileMode⟩⟩
  · rintro ⟨houtputDir, hindent, hdirMode, hfileMode⟩
    have htopErrors : Readable "top_errors" .ok entries := fun d _ => ⟨d, rfl⟩
    obtain ⟨outputDir, houtputDir⟩ := (@exists_lenientField_iff _ _ _ _ .text).mpr houtputDir
    obtain ⟨indent, hindent⟩ := (@exists_lenientField_iff _ _ _ _ .text).mpr hindent
    obtain ⟨dirMode, hdirMode⟩ := (@exists_lenientField_iff _ _ _ _ .int).mpr hdirMode
    obtain ⟨fileMode, hfileMode⟩ := (@exists_lenientField_iff _ _ _ _ .int).mpr hfileMode
    obtain ⟨topErrors, htopErrors⟩ := (@exists_lenientField_iff _ _ _ _ id).mpr htopErrors
    refine ⟨outputDir ++ indent ++ dirMode ++ fileMode ++ topErrors, ?_⟩
    rw [lenientEntries, houtputDir, hindent, hdirMode, hfileMode, htopErrors]
    rfl

theorem lenient_eq_ok_iff (s : Settings) :
    lenient (.mapping entries) = .ok s ↔ Reads entries s := by
  constructor
  · intro h
    obtain ⟨found, hfound, hs⟩ := Checked.bind_eq_ok_iff.mp h
    exact (ofEntries_iff_reads hfound s).mp (Checked.mapError_eq_ok_iff.mp hs)
  · intro h
    obtain ⟨found, hfound⟩ := exists_lenientEntries_iff.mpr
      ⟨h.outputDir.readable, h.indent.readable, h.dirMode.readable, h.fileMode.readable⟩
    apply Checked.bind_eq_ok_iff.mpr
    exact ⟨found, hfound, Checked.mapError_eq_ok_iff.mpr ((ofEntries_iff_reads hfound s).mpr h)⟩

/-! ## What is overlooked -/

/-- The first value of a mapping that cannot be read is one that no report foresees: a directory or
an indentation nested too deeply, a number of blanks that there cannot be, or permission bits that
are no numeral. -/
inductive Overlooked (entries : List (Datum × Datum)) : Prop
  | outputDir {d : Datum} (h : Datum.field? "output_dir" entries = some d) (hd : d.TooDeep)
  | indent (houtputDir : Readable "output_dir" writtenText entries) {d : Datum}
      (h : Datum.field? "indent" entries = some d) (hd : d.NoIndentation)
  | dirMode (houtputDir : Readable "output_dir" writtenText entries)
      (hindent : Readable "indent" lenientIndent entries) {d : Datum}
      (h : Datum.field? "dir_mode" entries = some d) (hd : d.NoNumeral)
  | fileMode (houtputDir : Readable "output_dir" writtenText entries)
      (hindent : Readable "indent" lenientIndent entries)
      (hdirMode : Readable "dir_mode" lenientMode entries) {d : Datum}
      (h : Datum.field? "file_mode" entries = some d) (hd : d.NoNumeral)

private theorem overlooks_lenientEntries_iff :
    Overlooks (lenientEntries entries) ↔ Overlooked entries := by
  refine (overlooks_field_bind_iff fun _ => overlooks_field_bind_iff fun _ =>
    overlooks_field_bind_iff fun _ => overlooks_field_bind_iff fun _ =>
      overlooks_field_bind_iff fun _ => iff_of_false (not_overlooks_ok _) not_false).trans ?_
  simp only [overlooks_writtenText_iff, overlooks_lenientIndent_iff, overlooks_lenientMode_iff,
    not_overlooks_ok, and_false, exists_false, or_false]
  constructor
  · rintro (⟨d, h, hd⟩ |
      ⟨houtputDir, ⟨d, h, hd⟩ | ⟨hindent, ⟨d, h, hd⟩ | ⟨hdirMode, d, h, hd⟩⟩⟩)
    · exact .outputDir h hd
    · exact .indent houtputDir h hd
    · exact .dirMode houtputDir hindent h hd
    · exact .fileMode houtputDir hindent hdirMode h hd
  · intro h
    cases h with
    | @outputDir d h hd => exact .inl ⟨d, h, hd⟩
    | @indent houtputDir d h hd => exact .inr ⟨houtputDir, .inl ⟨d, h, hd⟩⟩
    | @dirMode houtputDir hindent d h hd =>
      exact .inr ⟨houtputDir, .inr ⟨hindent, .inl ⟨d, h, hd⟩⟩⟩
    | @fileMode houtputDir hindent hdirMode d h hd =>
      exact .inr ⟨houtputDir, .inr ⟨hindent, .inr ⟨hdirMode, d, h, hd⟩⟩⟩

private theorem overlooks_lenient_iff :
    Overlooks (lenient (.mapping entries)) ↔ Overlooked entries := by
  rw [← overlooks_lenientEntries_iff, lenient, overlooks_bind_iff]
  apply or_iff_left
  rintro ⟨found, -, h⟩
  exact not_overlooks_mapError (fun _ => rfl) h

/-- A lenient reading of a mapping gives settings exactly where the fields give them, and these have
permission bits in their range and list at least one reason. Where there are none the command line
reports the fault, unless it comes from a value that is overlooked. -/
theorem lenient_outcomes (entries : List (Datum × Datum)) :
    (∀ s, lenient (.mapping entries) = .ok s ↔ Reads entries s) ∧
    (∀ s, lenient (.mapping entries) = .ok s → s.dirMode.val ≤ 511 ∧ s.fileMode.val ≤ 511 ∧
      ∀ cap ∈ s.topErrors, 1 ≤ cap.val) ∧
    ((∃ fault, lenient (.mapping entries) = .error fault ∧
      (LoadFault.settings fault).isReported = false) ↔ Overlooked entries) := by
  refine ⟨lenient_eq_ok_iff, ?_, overlooks_lenient_iff⟩
  intro s _
  refine ⟨Nat.le_of_lt_succ s.dirMode.isLt, Nat.le_of_lt_succ s.fileMode.isLt, ?_⟩
  intro cap _
  exact cap.property

end Host

open scoped Host in
/-- No permission bits at all are overlooked. -/
theorem lenient_dirMode_null :
    lenient (.mapping [(.text "dir_mode", .null)]) = .error (.modeKind "NoneType") ∧
      (LoadFault.settings (.modeKind "NoneType")).isReported = false :=
  ⟨rfl, rfl⟩

end Settings

end ConversionCoverage
