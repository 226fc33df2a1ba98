import ConversionCoverage.Host.Usual
import ConversionCoverage.Proofs.Buckets
import ConversionCoverage.Proofs.Digits
import ConversionCoverage.Proofs.Halves
import ConversionCoverage.Proofs.RecordSchema

/-!
# Names that occur twice

If all fields of a record are valid and some of its examples share names, then there is one issue,
with the record as a whole, and its message lists these names, unless it cannot be encoded. Issues
with fields are all told with the place of the field, and no issue is told about names beside them.
-/

namespace ConversionCoverage

/-! ## Issues about names -/

/-- A message that lists names that occur twice. -/
def Problem.TellsRepeated (p : Problem) : Prop :=
  ∃ t : Text, p = .fault ("Duplicate example names: " ++ t)

/-- An issue that tells of something else than names that occur twice, or a datum that is nested too
deeply for it. -/
structure Issue.TellsOther (issue : Issue) : Prop where
  not_repeated : ¬ issue.problem.TellsRepeated
  interruption : ∀ cause, issue.problem = .interruption cause → cause = .tooDeep

private theorem Issue.covers_tellsOther : Covers TellsOther where
  within _ _ h := ⟨h.not_repeated, h.interruption⟩
  plain _ hp := by
    constructor
    · rintro ⟨t, rfl⟩
      cases hp
    · rintro cause rfl
      cases hp

private theorem Datum.hereditary_true : Hereditary fun _ => True where
  items _ _ _ _ := trivial
  values _ _ _ _ := trivial

/-! ## Issues with fields -/

theorem Numeral.Fault.head?_message_ne (fault : Numeral.Fault) :
    fault.message.head? ≠ some (.char 'D') := by
  cases fault with
  | malformed base shown => exact nofun
  | tooLong digits => exact nofun
  | tooLongToWrite => exact nofun

private theorem Text.head?_ofInt_ne (n : Int) (t : Text) :
    (ofInt n ++ t).head? ≠ some (.char 'D') := by
  cases n with
  | ofNat n =>
    obtain ⟨c, rest, hdigits⟩ := List.exists_cons_of_ne_nil (ofNat_ne_nil n)
    have hdigit := isDigits_ofNat n c (by rw [hdigits]; exact List.mem_cons_self)
    have hfirst : (ofInt (.ofNat n) ++ t).head? = some c := by rw [ofInt, hdigits]; rfl
    rw [hfirst]
    rintro ⟨⟩
    cases hdigit
  | negSucc n => exact nofun

/-- What is wrong with a severity is told in words that start with another letter. -/
theorem Severity.Fault.head?_message_ne [Host] {fault : Severity.Fault} {message : Text}
    (h : fault.message = .ok message) : message.head? ≠ some (.char 'D') := by
  cases fault with
  | outOfRange n =>
    rw [Fault.message] at h
    cases hwrite : Numeral.write n with
    | error cause =>
      rw [hwrite] at h
      obtain rfl := Except.ok.inj h
      exact cause.head?_message_ne
    | ok shown =>
      rw [hwrite] at h
      obtain rfl := Except.ok.inj h
      rw [Numeral.write] at hwrite
      split at hwrite
      · cases hwrite
      · cases hwrite
        exact Text.head?_ofInt_ne n _
  | numeral cause =>
    obtain rfl := Except.ok.inj h
    exact cause.head?_message_ne
  | unknown d =>
    rw [Fault.message] at h
    split at h
    · obtain rfl := Except.ok.inj h
      intro hhead
      cases hhead
    · obtain rfl := Except.ok.inj h
      exact Numeral.Fault.head?_message_ne _
    · cases h

private theorem Attempt.meets_tellsOther [Host] (d : Datum) :
    Checked.Meets Issue.TellsOther (checkSeverity d) := by
  rw [checkSeverity]
  split
  · exact Checked.meets_ok _
  · rename_i fault hfault
    apply Checked.meets_problem
    rcases Severity.severityProblem_of_error hfault with ⟨message, htold⟩ | ⟨hdeep, -⟩
    · have hmessage : fault.message = .ok message := by
        rw [severityProblem] at htold
        split at htold
        · rename_i shown hshown
          rw [hshown, Problem.fault.inj htold]
        · cases htold
      constructor
      · rintro ⟨t, h⟩
        obtain rfl := Problem.fault.inj (htold.symm.trans h)
        exact Severity.Fault.head?_message_ne hmessage rfl
      · intro cause hcause
        cases htold.symm.trans hcause
    · constructor
      · rintro ⟨t, h⟩
        cases hdeep.symm.trans h
      · intro cause hcause
        exact (Problem.interruption.inj (hdeep.symm.trans hcause)).symm

namespace Record

/-! ## The names that are listed -/

theorem mem_repeatedNames {names : List Text} {name : Text} :
    name ∈ repeatedNames names ↔ 2 ≤ names.count name := by
  rw [repeatedNames, Text.mem_distinct, List.mem_filter, decide_eq_true_iff]
  constructor
  · exact fun h => h.2
  · intro h
    exact ⟨List.count_pos_iff.mp (by omega), h⟩

theorem pairwise_repeatedNames (names : List Text) : (repeatedNames names).Pairwise (· < ·) :=
  Text.pairwise_distinct _

theorem repeatedNames_congr {names others : List Text}
    (h : ∀ name, 2 ≤ names.count name ↔ 2 ≤ others.count name) :
    repeatedNames names = repeatedNames others := by
  apply (pairwise_repeatedNames names).eq_of_mem_iff (pairwise_repeatedNames others)
  intro name
  rw [mem_repeatedNames, mem_repeatedNames, h]

private theorem repeatedNamesProblem_congr {names others : List Text}
    (h : ∀ name, 2 ≤ names.count name ↔ 2 ≤ others.count name) :
    repeatedNamesProblem names = repeatedNamesProblem others := by
  have hmessage : repeatedNamesMessage names = repeatedNamesMessage others := by
    rw [repeatedNamesMessage, repeatedNames_congr h, ← repeatedNamesMessage]
  unfold repeatedNamesProblem
  rw [hmessage]

private theorem not_nodup_iff {names : List Text} :
    ¬ names.Nodup ↔ ∃ name, 2 ≤ names.count name := by
  rw [List.nodup_iff_count_le_one, not_forall]
  exact exists_congr fun name => Nat.not_le

/-- The fault for examples that share names: one issue with the record as a whole. -/
def sharedNames (names : List Text) : SchemaFault :=
  .invalid ⟨.record, [⟨[], .fault ("Duplicate example names: " ++ Text.join ", " names)⟩]⟩

/-- The answer for examples that share names: an issue that lists them, if the list can be
encoded. -/
inductive TellsNames (names : List Text) : SchemaFault → Prop
  | shared (h : ∀ name ∈ names, ¬ name.HasHalf) : TellsNames names (sharedNames names)
  | unencodable {fault : Utf8.EncodingFault} (h : ∃ name ∈ names, name.HasHalf)
      (hencode : Utf8.encode ("Duplicate example names: " ++ Text.join ", " names) = .error fault) :
      TellsNames names (.interrupted (.unencodable fault))

private theorem tellsNames_ofIssues (names : List Text) :
    TellsNames (repeatedNames names) (.ofIssues [⟨[], repeatedNamesProblem names⟩]) := by
  have hhalf : Text.HasHalf (repeatedNamesMessage names) ↔
      ∃ name ∈ repeatedNames names, name.HasHalf := by
    rw [repeatedNamesMessage, Text.hasHalf_append, Text.hasHalf_join (Text.not_hasHalf_ofString _)]
    exact or_iff_right (Text.not_hasHalf_ofString _)
  rcases repeatedNamesProblem_cases names with ⟨bytes, hbytes, h⟩ | ⟨fault, hfault, h⟩
  · rw [h]
    have hnone : ¬ (repeatedNamesMessage names).HasHalf := fun hheld => by
      obtain ⟨fault, hfault⟩ := Utf8.exists_encode_eq_error hheld
      cases hbytes.symm.trans hfault
    exact .shared fun name hname hheld => hnone (hhalf.mpr ⟨name, hname, hheld⟩)
  · rw [h]
    have hsome : (repeatedNamesMessage names).HasHalf := by
      by_contra hnone
      obtain ⟨bytes, hbytes⟩ := Utf8.exists_encode_eq_ok hnone
      cases hbytes.symm.trans hfault
    exact .unencodable (hhalf.mp hsome) hfault

/-! ## Reading -/

section Reading

variable [Host]

/-- All fields of a record are valid, those of its examples and their attempts among them. What they
are read as may have examples that share names. -/
structure FieldsValid (entries : List (Datum × Datum)) (provider version : Text)
    (examples : List Example) : Prop where
  provider : providerField.required Datum.asText entries = .ok provider
  version : versionField.optional [] Datum.asText entries = .ok version
  examples : examplesField.optional [] (Checked.listOf Example.ofDatum) entries = .ok examples

theorem checkFields_eq_ok_iff {entries : List (Datum × Datum)} {provider version : Text}
    {examples : List Example} : checkFields entries = .ok (provider, version, examples) ↔
      FieldsValid entries provider version examples := by
  rw [checkFields, Checked.both_eq_ok_iff, Checked.both_eq_ok_iff]
  exact ⟨fun ⟨hp, hv, he⟩ => ⟨hp, hv, he⟩, fun h => ⟨h.provider, h.version, h.examples⟩⟩

theorem fieldsValid_iff_spelled {entries : List (Datum × Datum)} (h : Datum.PlainEntries entries)
    (provider version : Text) (examples : List Example) :
    FieldsValid entries provider version examples ↔ Spelled entries provider version examples := by
  have hexamples := Datum.decides_listOf Example.decides_ofDatum
  constructor
  · rintro ⟨hp, hv, he⟩
    exact ⟨(Field.required_eq_ok_iff Datum.decides_asText h).mp hp,
      (Field.optional_eq_ok_iff Datum.decides_asText h).mp hv,
      (Field.optional_eq_ok_iff hexamples h).mp he⟩
  · rintro ⟨hp, hv, he⟩
    exact ⟨(Field.required_eq_ok_iff Datum.decides_asText h).mpr hp,
      (Field.optional_eq_ok_iff Datum.decides_asText h).mpr hv,
      (Field.optional_eq_ok_iff hexamples h).mpr he⟩

theorem ofDatum_of_fieldsValid {entries : List (Datum × Datum)} {provider version : Text}
    {examples : List Example} (h : FieldsValid entries provider version examples)
    (hrepeated : ∃ name, 2 ≤ (examples.map Example.name).count name) :
    ofDatum (.mapping entries) =
      .error (.ofIssues [⟨[], repeatedNamesProblem (examples.map Example.name)⟩]) := by
  rw [ofDatum, ofEntries_eq, checkFields_eq_ok_iff.mpr h]
  show (ofParts provider version examples).mapError _ = _
  rw [ofParts, dif_neg (not_nodup_iff.mpr hrepeated)]
  rfl

private theorem ofDatum_of_invalid {entries : List (Datum × Datum)}
    (hinvalid : ∀ provider version examples, ¬ FieldsValid entries provider version examples) :
    (∃ issues, ofDatum (.mapping entries) = .error (.invalid ⟨.record, issues⟩) ∧
      issues ≠ [] ∧ ∀ issue ∈ issues, issue.place ≠ [] ∧ ¬ issue.problem.TellsRepeated) ∨
    ofDatum (.mapping entries) = .error (.interrupted .tooDeep) := by
  have hmeets := meets_checkFields Issue.covers_tellsOther Datum.hereditary_true
    (fun d _ => Attempt.meets_tellsOther d) (fun entry (_ : entry ∈ entries) => trivial)
  rw [ofDatum, ofEntries_eq]
  cases hfields : checkFields entries with
  | ok parts => exact absurd (checkFields_eq_ok_iff.mp hfields) (hinvalid _ _ _)
  | error issues =>
    obtain ⟨hne, hissues⟩ := hmeets issues hfields
    have hanswer : ((Except.error issues : Checked (Text × Text × List Example)).bind
        fun parts => ofParts parts.1 parts.2.1 parts.2.2).mapError SchemaFault.ofIssues =
          .error (.ofIssues issues) := rfl
    rw [hanswer, SchemaFault.ofIssues]
    cases hinterruption : Issue.interruption? issues with
    | none =>
      exact .inl ⟨issues, rfl, hne, fun issue hissue =>
        ⟨(hissues issue hissue).2, (hissues issue hissue).1.not_repeated⟩⟩
    | some cause =>
      obtain ⟨issue, hissue, hcause⟩ := Issue.exists_of_interruption?_eq_some hinterruption
      rw [(hissues issue hissue).1.interruption cause hcause]
      exact .inr rfl

/-- If all fields are valid and some name occurs at least twice among the examples, then the answer
is one issue with the record as a whole, which lists each of these names once and in increasing
order, or the fault that this list cannot be encoded. Nothing else about the examples makes a
difference to it. If some field is not valid then all issues are with fields, and none is about
names, or plain data are nested more deeply than there is room for. In plain data the valid fields
are those that spell something. -/
theorem ofDatum_repeatedNames (entries : List (Datum × Datum)) :
    (∀ provider version examples, FieldsValid entries provider version examples →
      (∃ name, 2 ≤ (examples.map Example.name).count name) →
      (∃ names fault, ofDatum (.mapping entries) = .error fault ∧ TellsNames names fault ∧
        names.Pairwise (· < ·) ∧
        ∀ name, name ∈ names ↔ 2 ≤ (examples.map Example.name).count name) ∧
      ∀ entries' provider' version' examples', FieldsValid entries' provider' version' examples' →
        (∀ name, 2 ≤ (examples'.map Example.name).count name ↔
          2 ≤ (examples.map Example.name).count name) →
        ofDatum (.mapping entries') = ofDatum (.mapping entries)) ∧
    ((∀ provider version examples, ¬ FieldsValid entries provider version examples) →
      (∃ issues, ofDatum (.mapping entries) = .error (.invalid ⟨.record, issues⟩) ∧
        issues ≠ [] ∧ ∀ issue ∈ issues, issue.place ≠ [] ∧ ¬ issue.problem.TellsRepeated) ∨
      ofDatum (.mapping entries) = .error (.interrupted .tooDeep) ∧
        (Datum.PlainEntries entries → Host.room .showing < (Datum.mapping entries).levels)) ∧
    (Datum.PlainEntries entries → ∀ provider version examples,
      FieldsValid entries provider version examples ↔
        Spelled entries provider version examples) := by
  refine ⟨?_, ?_, fieldsValid_iff_spelled⟩
  · intro provider version examples hvalid hrepeated
    refine ⟨⟨_, _, ofDatum_of_fieldsValid hvalid hrepeated, tellsNames_ofIssues _,
      pairwise_repeatedNames _, fun name => mem_repeatedNames⟩, ?_⟩
    intro entries' provider' version' examples' hvalid' hsame
    obtain ⟨name, hname⟩ := hrepeated
    rw [ofDatum_of_fieldsValid hvalid' ⟨name, (hsame name).mpr hname⟩,
      ofDatum_of_fieldsValid hvalid ⟨name, hname⟩, repeatedNamesProblem_congr hsame]
  · intro hinvalid
    rcases ofDatum_of_invalid hinvalid with h | hdeep
    · exact .inl h
    · refine .inr ⟨hdeep, fun hplain => ?_⟩
      have hmapping : (Datum.mapping entries).Plain := .mapping hplain.names_nodup hplain.values
      cases rejectedWith_of_error hmapping hdeep with
      | tooDeep h => exact h

end Reading

/-- The entries of a record whose examples have some names and no attempts. -/
def namedExamples (names : List Text) : List (Datum × Datum) := [
  (.text "ProviderName", .text "aws"),
  (.text "Examples", .list (names.map fun name => .mapping [(.text "Name", .text name)]))]

open scoped Host in
theorem ofDatum_repeatedNames_shared :
    (∃ names, ofDatum (.mapping (namedExamples ["b", "a", "b", "c", "a", "b"])) =
        .error (sharedNames names) ∧
      names.Pairwise (· < ·) ∧ ("a" : Text) ∈ names ∧ ("b" : Text) ∈ names ∧
      ("c" : Text) ∉ names) ∧
    ∃ issues, ofDatum (.mapping ((.text "ProviderVersion", .null) :: namedExamples ["b", "b"])) =
        .error (.invalid ⟨.record, issues⟩) ∧
      ∀ issue ∈ issues, issue.place ≠ [] ∧ ¬ issue.problem.TellsRepeated := by
  have hvalid : FieldsValid (namedExamples ["b", "a", "b", "c", "a", "b"]) "aws" []
      (["b", "a", "b", "c", "a", "b"].map fun name => ⟨name, [], []⟩) := ⟨rfl, rfl, rfl⟩
  obtain ⟨⟨names, fault, hanswer, htells, horder, hmem⟩, -⟩ :=
    (ofDatum_repeatedNames _).1 _ _ _ hvalid ⟨"b", by decide⟩
  have hinvalid (provider version : Text) (examples : List Example) :
      ¬ FieldsValid ((.text "ProviderVersion", .null) :: namedExamples ["b", "b"]) provider version
        examples := fun h => nomatch h.version
  constructor
  · have hhalfless : ∀ name ∈ (["b", "a", "b", "c", "a", "b"] : List Text), ¬ name.HasHalf := by
      decide
    cases htells with
    | shared _ =>
      exact ⟨names, hanswer, horder, (hmem "a").mpr (by decide), (hmem "b").mpr (by decide),
        fun hc => absurd ((hmem "c").mp hc) (by decide)⟩
    | unencodable h _ =>
      obtain ⟨name, hname, hhalf⟩ := h
      have hcount := (hmem name).mp hname
      rw [List.map_map] at hcount
      exact absurd hhalf (hhalfless name (List.count_pos_iff.mp (Nat.lt_of_succ_lt hcount)))
  · rcases (ofDatum_repeatedNames _).2.1 hinvalid with ⟨issues, hissues, -, hplaces⟩ | ⟨hdeep, -⟩
    · exact ⟨issues, hissues, hplaces⟩
    · cases hdeep

open scoped Host in
/-- An issue that lists shared names is not always there: the list may have half of a surrogate
pair. -/
theorem ofDatum_namedExamples_half :
    FieldsValid (namedExamples [[.half 0], [.half 0]]) "aws" []
      [⟨[.half 0], [], []⟩, ⟨[.half 0], [], []⟩] ∧
    ofDatum (.mapping (namedExamples [[.half 0], [.half 0]])) =
      .error (.interrupted (.unencodable ⟨0, 25, 26⟩)) := by
  exact ⟨⟨rfl, rfl, rfl⟩, rfl⟩

end Record

end ConversionCoverage
