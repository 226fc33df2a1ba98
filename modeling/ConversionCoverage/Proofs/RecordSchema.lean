import ConversionCoverage.Host.Usual
import ConversionCoverage.Proofs.SeverityGrammar

/-!
# What the schema of records accepts

How a tree of plain data spells a record, put down as a grammar: which fields there are, which values
they may have, which of them may be missing and what they are then. A tree is accepted if it spells a
record whose examples have different names, and the record that is read is the one that it spells.
Any other tree has issues, unless it is nested so deeply that they cannot be told.
-/

namespace ConversionCoverage

namespace Attempt

structure Spelled (entries : List (Datum × Datum)) (a : Attempt) : Prop where
  language : languageField.Requires Datum.IsText entries a.language
  severity : severityField.Allows .success (fun d s => Severity.ofDatum d = .ok s) entries
    a.severity
  detail : detailField.Allows [] Datum.IsText entries a.detail
  multiple : multipleField.Allows false Datum.Means entries a.multiple

variable [Host]

private theorem decides_checkSeverity :
    Datum.Decides checkSeverity fun d s => Severity.ofDatum d = .ok s := by
  intro d _ s
  show checkSeverity d = .ok s ↔ Severity.ofDatum d = .ok s
  rw [checkSeverity]
  cases Severity.ofDatum d with
  | ok t => simp
  | error fault => simp [Checked.problem]

theorem ofEntries_eq_ok_iff {entries : List (Datum × Datum)} (h : Datum.PlainEntries entries)
    (a : Attempt) : ofEntries entries = .ok a ↔ Spelled entries a := by
  simp only [ofEntries, Checked.map_eq_ok_iff, Prod.exists, Checked.both_eq_ok_iff,
    Field.required_eq_ok_iff Datum.decides_asText h,
    Field.optional_eq_ok_iff Datum.decides_asText h,
    Field.optional_eq_ok_iff Datum.decides_asBool h,
    Field.optional_eq_ok_iff decides_checkSeverity h]
  constructor
  · rintro ⟨language, severity, detail, multiple, ⟨hl, hs, hd, hm⟩, rfl⟩
    exact ⟨hl, hs, hd, hm⟩
  · intro ha
    exact ⟨_, _, _, _, ⟨ha.language, ha.severity, ha.detail, ha.multiple⟩, rfl⟩

theorem decides_ofDatum : Datum.Decides ofDatum (Datum.Maps Spelled) :=
  Datum.decides_mapping fun _ => ofEntries_eq_ok_iff

end Attempt

namespace Example

structure Spelled (entries : List (Datum × Datum)) (e : Example) : Prop where
  name : nameField.Requires Datum.IsText entries e.name
  source : sourceField.Allows [] Datum.IsText entries e.source
  attempts : attemptsField.Allows [] (Datum.Lists (Datum.Maps Attempt.Spelled)) entries e.attempts

variable [Host]

theorem ofEntries_eq_ok_iff {entries : List (Datum × Datum)} (h : Datum.PlainEntries entries)
    (e : Example) : ofEntries entries = .ok e ↔ Spelled entries e := by
  simp only [ofEntries, Checked.map_eq_ok_iff, Prod.exists, Checked.both_eq_ok_iff,
    Field.required_eq_ok_iff Datum.decides_asText h,
    Field.optional_eq_ok_iff Datum.decides_asText h,
    Field.optional_eq_ok_iff (Datum.decides_listOf Attempt.decides_ofDatum) h]
  constructor
  · rintro ⟨name, source, attempts, ⟨hn, hs, ha⟩, rfl⟩
    exact ⟨hn, hs, ha⟩
  · intro he
    exact ⟨_, _, _, ⟨he.name, he.source, he.attempts⟩, rfl⟩

theorem decides_ofDatum : Datum.Decides ofDatum (Datum.Maps Spelled) :=
  Datum.decides_mapping fun _ => ofEntries_eq_ok_iff

end Example

namespace Record

/-- A tree spells a provider, its version and a list of examples, which may share names. -/
structure Spelled (entries : List (Datum × Datum)) (provider version : Text)
    (examples : List Example) : Prop where
  provider : providerField.Requires Datum.IsText entries provider
  version : versionField.Allows [] Datum.IsText entries version
  examples : examplesField.Allows [] (Datum.Lists (Datum.Maps Example.Spelled)) entries examples

section Reading

variable [Host]

omit [Host] in
theorem ofParts_eq_ok_iff {provider version : Text} {examples : List Example} {r : Record} :
    ofParts provider version examples = .ok r ↔
      provider = r.provider ∧ version = r.version ∧ examples = r.examples := by
  rw [ofParts]
  constructor
  · intro h
    split at h
    · obtain rfl := Except.ok.inj h
      exact ⟨rfl, rfl, rfl⟩
    · cases h
  · rintro ⟨rfl, rfl, rfl⟩
    rw [dif_pos r.names_nodup]

theorem ofEntries_eq_ok_iff {entries : List (Datum × Datum)} (h : Datum.PlainEntries entries)
    (r : Record) :
    ofEntries entries = .ok r ↔ Spelled entries r.provider r.version r.examples := by
  simp only [ofEntries, Checked.bind_eq_ok_iff, Prod.exists, Checked.both_eq_ok_iff,
    Field.required_eq_ok_iff Datum.decides_asText h,
    Field.optional_eq_ok_iff Datum.decides_asText h,
    Field.optional_eq_ok_iff (Datum.decides_listOf Example.decides_ofDatum) h,
    ofParts_eq_ok_iff]
  constructor
  · rintro ⟨provider, version, examples, ⟨hp, hv, he⟩, rfl, rfl, rfl⟩
    exact ⟨hp, hv, he⟩
  · intro hr
    exact ⟨_, _, _, ⟨hr.provider, hr.version, hr.examples⟩, rfl, rfl, rfl⟩

theorem ofDatum_eq_ok_iff {d : Datum} (hd : d.Plain) (r : Record) :
    ofDatum d = .ok r ↔
      ∃ entries, d = .mapping entries ∧ Spelled entries r.provider r.version r.examples := by
  cases hd with
  | @mapping entries hnames hvalues =>
    rw [ofDatum, Checked.mapError_eq_ok_iff, ofEntries_eq_ok_iff ⟨hnames, hvalues⟩]
    constructor
    · intro h
      exact ⟨entries, rfl, h⟩
    · rintro ⟨_, ⟨⟩, h⟩
      exact h
  | _ =>
    constructor
    · intro h
      cases h
    · rintro ⟨_, ⟨⟩, _⟩

/-! ## What a tree is rejected with -/

/-- Plain data with at most so many levels. -/
structure Shallow (n : Nat) (d : Datum) : Prop where
  plain : d.Plain
  levels : d.levels ≤ n

omit [Host] in
theorem hereditary_shallow (n : Nat) : Datum.Hereditary (Shallow n) where
  items := by
    rintro d items ⟨hplain, hlevels⟩ h item hitem
    cases hplain with
    | list hitems =>
      obtain rfl := Except.ok.inj h
      rw [Datum.levels] at hlevels
      have hitemLevels := Datum.levels_le_itemsLevels hitem
      exact ⟨hitems item hitem, by omega⟩
    | _ => cases h
  values := by
    rintro d shape entries ⟨hplain, hlevels⟩ h entry hentry
    cases hplain with
    | mapping hnames hvalues =>
      obtain rfl := Except.ok.inj h
      rw [Datum.levels] at hlevels
      have hentryLevels := Datum.levels_le_entriesLevels hentry
      exact ⟨hvalues entry hentry, by omega⟩
    | _ => cases h

/-- An issue that can be told, unless there is less room than `n` levels need. -/
def Told (n : Nat) (issue : Issue) : Prop :=
  ∀ cause, issue.problem = .interruption cause → cause = .tooDeep ∧ Host.room .showing < n

private theorem covers_told (n : Nat) : Issue.Covers (Told n) where
  within _ _ h := h
  plain _ hp cause h := by
    obtain rfl : _ = Problem.interruption cause := h
    cases hp

private theorem meets_checkSeverity {n : Nat} {d : Datum} (hd : Shallow n d) :
    Checked.Meets (Told n) (Attempt.checkSeverity d) := by
  have hopened : d.opened = d := by
    have hplain := hd.plain
    cases hplain <;> rfl
  rw [Attempt.checkSeverity]
  split
  · exact Checked.meets_ok _
  · rename_i fault h
    apply Checked.meets_problem
    intro cause hcause
    rcases Severity.severityProblem_of_error h with ⟨message, htold⟩ | ⟨hdeep, hroom⟩
    · cases htold.symm.trans hcause
    · rw [hopened] at hroom
      cases hdeep.symm.trans hcause
      exact ⟨rfl, Nat.lt_of_lt_of_le hroom hd.levels⟩

private theorem interruption?_of_told {n : Nat} {issues : List Issue}
    (h : ∀ issue ∈ issues, Told n issue) :
    Issue.interruption? issues = none ∨
      Issue.interruption? issues = some .tooDeep ∧ Host.room .showing < n := by
  cases hfind : Issue.interruption? issues with
  | none => exact .inl rfl
  | some cause =>
    right
    obtain ⟨issue, hissue, hproblem⟩ := Issue.exists_of_interruption?_eq_some hfind
    obtain ⟨rfl, hroom⟩ := h issue hissue cause hproblem
    exact ⟨rfl, hroom⟩

/-- The ways in which a mapping is rejected. -/
inductive RejectedWith (d : Datum) : SchemaFault → Prop
  | issues {issues : List Issue} (h : issues ≠ []) : RejectedWith d (.invalid ⟨.record, issues⟩)
  | unencodable (fault : Utf8.EncodingFault) : RejectedWith d (.interrupted (.unencodable fault))
  | tooDeep (h : Host.room .showing < d.levels) : RejectedWith d (.interrupted .tooDeep)

private theorem rejectedWith_of_told {d : Datum} {issues : List Issue} (hne : issues ≠ [])
    (h : ∀ issue ∈ issues, Told d.levels issue) : RejectedWith d (.ofIssues issues) := by
  rw [SchemaFault.ofIssues]
  rcases interruption?_of_told h with hnone | ⟨hdeep, hroom⟩
  · rw [hnone]
    exact .issues hne
  · rw [hdeep]
    exact .tooDeep hroom

omit [Host] in
theorem repeatedNamesProblem_cases (names : List Text) :
    (∃ bytes, Utf8.encode (repeatedNamesMessage names) = .ok bytes ∧
      repeatedNamesProblem names = .fault (repeatedNamesMessage names)) ∨
    ∃ fault, Utf8.encode (repeatedNamesMessage names) = .error fault ∧
      repeatedNamesProblem names = .interruption (.unencodable fault) := by
  unfold repeatedNamesProblem
  generalize repeatedNamesMessage names = message
  cases Utf8.encode message with
  | ok bytes => exact .inl ⟨bytes, rfl, rfl⟩
  | error fault => exact .inr ⟨fault, rfl, rfl⟩

private theorem rejectedWith_repeatedNames (d : Datum) (names : List Text) :
    RejectedWith d (.ofIssues [⟨[], repeatedNamesProblem names⟩]) := by
  rcases repeatedNamesProblem_cases names with ⟨_, -, h⟩ | ⟨fault, -, h⟩
  · rw [h]
    exact .issues (List.cons_ne_nil _ _)
  · rw [h]
    exact .unencodable fault

private theorem rejectedWith_of_ofParts (d : Datum) {provider version : Text}
    {examples : List Example}
    {issues : List Issue} (h : ofParts provider version examples = .error issues) :
    RejectedWith d (.ofIssues issues) := by
  rw [ofParts] at h
  split at h
  · cases h
  · rw [Checked.problem, Except.error.injEq] at h
    rw [← h]
    exact rejectedWith_repeatedNames d _

theorem rejectedWith_of_error {entries : List (Datum × Datum)} (hd : (Datum.mapping entries).Plain)
    {fault : SchemaFault} (h : ofDatum (.mapping entries) = .error fault) :
    RejectedWith (.mapping entries) fault := by
  have hshallow : Shallow (Datum.mapping entries).levels (.mapping entries) := ⟨hd, Nat.le_refl _⟩
  have hasMapping : (Datum.mapping entries).asMapping .record = .ok entries := rfl
  have hvalues := (hereditary_shallow _).values hshallow hasMapping
  have hmeets := meets_checkFields (covers_told _) (hereditary_shallow _)
    (fun _ => meets_checkSeverity) hvalues
  rw [ofDatum, ofEntries_eq] at h
  cases hfields : checkFields entries with
  | error issues =>
    rw [hfields] at h
    obtain rfl := Except.error.inj h
    obtain ⟨hne, hmet⟩ := hmeets issues hfields
    exact rejectedWith_of_told hne fun issue hissue => (hmet issue hissue).1
  | ok parts =>
    rw [hfields, Except.bind] at h
    cases hparts : ofParts parts.1 parts.2.1 parts.2.2 with
    | ok r =>
      rw [hparts] at h
      cases h
    | error issues =>
      rw [hparts] at h
      obtain rfl := Except.error.inj h
      exact rejectedWith_of_ofParts _ hparts

/-- Reading a record from a tree of plain data succeeds if and only if the tree is a mapping that
spells one whose examples have different names. The record is then the one that is spelled. Else the
tree is no mapping, or it is one with issues, or with names in a message that cannot be encoded, or
it is nested too deeply for a message. -/
theorem ofDatum_exact {d : Datum} (hd : d.Plain) :
    (∀ r, ofDatum d = .ok r ↔
      ∃ entries, d = .mapping entries ∧ Spelled entries r.provider r.version r.examples) ∧
    ((∃ r, ofDatum d = .ok r) ↔ ∃ entries provider version examples, d = .mapping entries ∧
      Spelled entries provider version examples ∧ (examples.map Example.name).Nodup) ∧
    ∀ fault, ofDatum d = .error fault →
      (∀ entries, d ≠ .mapping entries) ∧ fault = .notMapping d.kind ∨
      (∃ entries, d = .mapping entries) ∧ RejectedWith d fault := by
  refine ⟨ofDatum_eq_ok_iff hd, ?_, ?_⟩
  · constructor
    · rintro ⟨r, h⟩
      obtain ⟨entries, rfl, hr⟩ := (ofDatum_eq_ok_iff hd r).mp h
      exact ⟨entries, _, _, _, rfl, hr, r.names_nodup⟩
    · rintro ⟨entries, provider, version, examples, rfl, h, hnodup⟩
      have hr := (ofDatum_eq_ok_iff hd ⟨provider, version, examples, hnodup⟩).mpr ⟨entries, rfl, h⟩
      exact ⟨_, hr⟩
  · intro fault h
    cases d with
    | mapping entries => exact .inr ⟨⟨entries, rfl⟩, rejectedWith_of_error hd h⟩
    | _ => exact .inl ⟨fun _ => nofun, (Except.error.inj h).symm⟩

end Reading

/-- A record with names of both kinds, and with an attempt whose severity and flag are words. -/
def spelledTree : Datum := .mapping [
  (.text "provider_name", .text "ignored"),
  (.text "ProviderName", .text "aws"),
  (.int 1, .null),
  (.text "examples", .list [.mapping [
    (.text "Name", .text "ex"),
    (.text "conversion_attempts", .list [.mapping [
      (.text "target_language", .text "go"),
      (.text "FailureSeverity", .text " Warning "),
      (.text "multiple_translations", .text "Yes")]])]])]

open scoped Host in
theorem ofDatum_exact_spelledTree : spelledTree.Plain ∧
    ∃ r, r.examples = [⟨"ex", [], [⟨"go", .warning, [], true⟩]⟩] ∧ ofDatum spelledTree = .ok r ∧
      ∃ entries, spelledTree = .mapping entries ∧
        Spelled entries r.provider r.version r.examples := by
  have hplain : spelledTree.Plain := by
    simp [spelledTree]
    decide
  let r : Record := ⟨"aws", [], [⟨"ex", [], [⟨"go", .warning, [], true⟩]⟩], by decide⟩
  have hr : ofDatum spelledTree = .ok r := rfl
  exact ⟨hplain, r, rfl, hr, ((ofDatum_exact hplain).1 r).mp hr⟩

/-- An empty list within others. -/
def nested : Nat → Datum
  | 0 => .list []
  | n + 1 => .list [nested n]

private theorem plain_nested (n : Nat) : (nested n).Plain := by
  induction n with
  | zero => exact .list nofun
  | succ n ih => exact .list (List.forall_mem_singleton.mpr ih)

private theorem quoted_nested {room n : Nat} (h : room ≤ n) :
    (nested n).quoted room = .error .tooDeep := by
  induction room generalizing n with
  | zero => rw [Datum.quoted.eq_def]
  | succ room ih =>
    obtain ⟨m, rfl⟩ := Nat.exists_eq_add_of_le' h
    have hinner := ih (Nat.le_add_left room m)
    show (nested (m + room + 1)).quoted (room + 1) = _
    rw [nested, Datum.quoted, Datum.quotedItems, hinner]
    rfl

/-- An attempt with the given severity. -/
def attemptWith (severity : Datum) : Datum :=
  .mapping [(.text "TargetLanguage", .text "go"), (.text "FailureSeverity", severity)]

/-- An example with the given attempts. -/
def exampleWith (attempts : Datum) : Datum :=
  .mapping [(.text "Name", .text "a"), (.text "ConversionAttempts", attempts)]

/-- A record with an attempt of the given severity. -/
def withSeverity (severity : Datum) : Datum := .mapping [(.text "ProviderName", .text "p"),
  (.text "Examples", .list [exampleWith (.list [attemptWith severity])])]

private theorem plain_withSeverity {severity : Datum} (h : severity.Plain) :
    (withSeverity severity).Plain := by
  simp only [withSeverity, exampleWith, attemptWith, Datum.plain_mapping_iff,
    Datum.plain_list_iff, List.forall_mem_cons]
  simp [Datum.names, h]
  decide

section Reported

variable [Host] {d : Datum} {issues : List Issue}

private theorem ofDatum_attemptWith (h : Attempt.checkSeverity d = .error issues) :
    Attempt.ofDatum (attemptWith d) =
      .error (issues.map (Issue.within (.key "FailureSeverity"))) := by
  show Attempt.ofEntries [(.text "TargetLanguage", .text "go"), (.text "FailureSeverity", d)] = _
  have hfind : Attempt.severityField.find? [(.text "TargetLanguage", .text "go"),
      (.text "FailureSeverity", d)] = some (.ofString "FailureSeverity", d) := rfl
  rw [Attempt.ofEntries, Field.optional, hfind]
  simp only [h]
  rfl

private theorem ofDatum_exampleWith (h : Checked.listOf Attempt.ofDatum d = .error issues) :
    Example.ofDatum (exampleWith d) =
      .error (issues.map (Issue.within (.key "ConversionAttempts"))) := by
  show Example.ofEntries [(.text "Name", .text "a"), (.text "ConversionAttempts", d)] = _
  have hfind : Example.attemptsField.find? [(.text "Name", .text "a"),
      (.text "ConversionAttempts", d)] = some (.ofString "ConversionAttempts", d) := rfl
  rw [Example.ofEntries, Field.optional.eq_def Example.attemptsField, hfind]
  simp only [h]
  rfl

omit [Host] in
theorem listOf_singleton {α : Type} {check : Datum → Checked α} (h : check d = .error issues) :
    Checked.listOf check (.list [d]) = .error (issues.map (Issue.within (.index 0))) := by
  show Checked.itemsFrom check 0 [d] = _
  rw [Checked.itemsFrom, h]
  rfl

private theorem ofDatum_withSeverity {cause : Interruption}
    (h : Attempt.checkSeverity d = .problem (.interruption cause)) :
    ofDatum (withSeverity d) = .error (.interrupted cause) := by
  have hattempts := listOf_singleton (ofDatum_attemptWith h)
  have hexamples := listOf_singleton (ofDatum_exampleWith hattempts)
  have hfind : examplesField.find? [(.text "ProviderName", .text "p"),
      (.text "Examples", .list [exampleWith (.list [attemptWith d])])] =
        some (.ofString "Examples", .list [exampleWith (.list [attemptWith d])]) := rfl
  rw [withSeverity, ofDatum, ofEntries, Field.optional.eq_def examplesField, hfind]
  simp only [hexamples]
  rfl

end Reported

open scoped Host in
/-- A severity within too many lists is rejected, but not with issues. -/
theorem ofDatum_withSeverity_nested : (withSeverity (nested 980)).Plain ∧
    ofDatum (withSeverity (nested 980)) = .error (.interrupted .tooDeep) := by
  have hseverity : Attempt.checkSeverity (nested 980) = .problem (.interruption .tooDeep) := by
    have hunknown : Severity.ofDatum (nested 980) = .error (.unknown (nested 980)) := rfl
    have hshown : (nested 980).shown (Host.room .showing) = .error .tooDeep :=
      quoted_nested (Nat.le_refl 980)
    rw [Attempt.checkSeverity, hunknown]
    simp only [Attempt.severityProblem, Severity.Fault.message, hshown]
  exact ⟨plain_withSeverity (plain_nested 980), ofDatum_withSeverity hseverity⟩

end Record

end ConversionCoverage
