import ConversionCoverage.Proofs.Halves
import ConversionCoverage.Proofs.Redaction
import ConversionCoverage.Proofs.ReportDocuments

/-!
# Which text cannot be exported

Halves of surrogate pairs come into a report from the texts of the record that it shows, and from
nowhere else.
-/

namespace ConversionCoverage

/-! ## Halves in the parts of a report -/

theorem Attempt.hasHalf_toJson (a : Attempt) :
    a.toJson.HasHalf ↔ a.language.HasHalf ∨ a.detail.HasHalf := by
  simp [toJson, Json.member, Json.hasHalf_object]

theorem ExampleReport.hasHalf_toJson (report : ExampleReport) : report.toJson.HasHalf ↔
    report.provider.HasHalf ∨ report.version.HasHalf ∨ report.name.HasHalf ∨
      report.source.HasHalf ∨ ∃ a ∈ report.failed, a.toJson.HasHalf := by
  have hsource : (∃ m ∈ (if report.source = [] then []
      else [Json.member "OriginalSource" (.text report.source)]),
      m.1.HasHalf ∨ m.2.HasHalf) ↔ report.source.HasHalf := by
    by_cases hempty : report.source = []
    · simp [hempty]
    · simp [hempty, Json.member]
  have hfailed : (∃ m ∈ (if report.failed = [] then []
      else [Json.member "FailedLanguages" (.array (report.failed.map Attempt.toJson))]),
      m.1.HasHalf ∨ m.2.HasHalf) ↔ ∃ a ∈ report.failed, a.toJson.HasHalf := by
    by_cases hempty : report.failed = []
    · simp [hempty]
    · simp [hempty, Json.member, Json.hasHalf_array]
  rw [toJson, Json.hasHalf_object, members]
  simp only [List.mem_append, or_and_right, exists_or, hsource, hfailed]
  simp [Json.member, or_assoc]

theorem ErrorCount.hasHalf_toJson (e : ErrorCount) : e.toJson.HasHalf ↔ e.reason.HasHalf := by
  simp [toJson, Json.member, Json.hasHalf_object]

theorem Shares.not_hasHalf_members (s : Shares) :
    ¬ ∃ m ∈ s.members, m.1.HasHalf ∨ m.2.HasHalf := by
  simp [members, Share.toJson, Json.member, Json.hasHalf_object]

theorem LanguageStatistic.hasHalf_toJson (s : LanguageStatistic) :
    s.toJson.HasHalf ↔ ∃ e ∈ s.frequentErrors, e.reason.HasHalf := by
  rw [toJson, Json.hasHalf_object]
  simp only [List.mem_append, or_and_right, exists_or, s.shares.not_hasHalf_members]
  simp [Json.member, Json.hasHalf_array, ErrorCount.hasHalf_toJson]

theorem ProviderStatistic.hasHalf_toJson (s : ProviderStatistic) : s.toJson.HasHalf ↔
    s.name.HasHalf ∨ s.version.HasHalf ∨ ∃ e ∈ s.conversionErrors, e.reason.HasHalf := by
  rw [toJson, Json.hasHalf_object]
  simp only [List.mem_append, or_and_right, exists_or, s.shares.not_hasHalf_members]
  simp [Json.member, Json.hasHalf_array, ErrorCount.hasHalf_toJson, or_assoc]

theorem Tally.Counts.exists_of_mem_frequent {t : Tally} {attempts : List Attempt}
    (h : t.Counts attempts) {limit : Option Int} {e : ErrorCount}
    (he : e ∈ t.errors.frequent limit) :
    ∃ a ∈ attempts, a.succeeded = false ∧ a.detail = e.reason := by
  have hmem : e ∈ t.errors := Histogram.mem_of_mem_frequent he
  have hpos : 0 < e.count := h.proper.pos e hmem
  rw [← Histogram.count_of_mem t.errors h.proper.nodup e hmem, h.errors] at hpos
  obtain ⟨a, ha, hreason⟩ := List.countP_pos_iff.mp (Int.natCast_pos.mp hpos)
  exact ⟨a, ha, by simpa using hreason⟩

/-! ## Halves in a record -/

/-- A half in what the report on examples shows of an example: in its name, and if it has failures
in its source or in the language or the detail of one of them. -/
def Example.ShowsHalf (e : Example) : Prop :=
  e.name.HasHalf ∨ e.hasFailures = true ∧ (e.source.HasHalf ∨
    ∃ a ∈ e.failedAttempts, a.language.HasHalf ∨ a.detail.HasHalf)

namespace Record

variable (r : Record)

/-- A half in the name or the version of the provider. -/
def ProviderHasHalf : Prop := r.provider.HasHalf ∨ r.version.HasHalf

/-- A half in what the report on examples shows. Without examples it shows nothing. -/
def ExamplesShowHalf : Prop :=
  r.examples ≠ [] ∧ (r.ProviderHasHalf ∨ ∃ e ∈ r.examples, e.ShowsHalf)

/-- A half in the language of an attempt that succeeded. -/
def SuccessHasHalf : Prop :=
  ∃ e ∈ r.examples, ∃ a ∈ e.attempts, a.succeeded = true ∧ a.language.HasHalf

private theorem hasHalf_ofExample (e : Example) :
    (ExampleReport.ofExample r e).toJson.HasHalf ↔ r.ProviderHasHalf ∨ e.ShowsHalf := by
  have hfailed : (∃ a ∈ e.failedAttempts, a.toJson.HasHalf) ↔ e.hasFailures = true ∧
      ∃ a ∈ e.failedAttempts, a.language.HasHalf ∨ a.detail.HasHalf := by
    simp only [Attempt.hasHalf_toJson]
    rw [e.hasFailures_iff]
    constructor
    · rintro ⟨a, ha, hhalf⟩
      exact ⟨List.ne_nil_of_mem ha, a, ha, hhalf⟩
    · exact fun h => h.2
  have hsource : Text.HasHalf (if e.hasFailures then e.source else []) ↔
      e.hasFailures = true ∧ e.source.HasHalf := by
    cases e.hasFailures <;> simp
  rw [ExampleReport.hasHalf_toJson]
  simp only [ExampleReport.ofExample, hsource, hfailed, ProviderHasHalf, Example.ShowsHalf,
    or_assoc, and_or_left]

theorem hasHalf_lines (s : Settings) : (Report.byExample.content r s).HasHalf ↔
    ∃ report ∈ r.exampleReports, report.toJson.HasHalf := by
  have hline (report : ExampleReport) :
      Text.HasHalf (report.toJson.toText .line ++ "\n") ↔ report.toJson.HasHalf := by
    simp [Json.toText, Json.hasHalf_print Json.halfless_line]
  rw [Report.content, Text.hasHalf_flatMap]
  simp only [hline]

theorem hasHalf_byExample (s : Settings) :
    (Report.byExample.content r s).HasHalf ↔ r.ExamplesShowHalf := by
  have hexamples : (∃ report ∈ r.exampleReports, report.toJson.HasHalf) ↔
      ∃ e ∈ r.examples, r.ProviderHasHalf ∨ e.ShowsHalf := by
    simp only [exampleReports, List.mem_map, exists_exists_and_eq_and, hasHalf_ofExample,
      r.sortedExamples_perm.mem_iff]
  rw [hasHalf_lines, hexamples, ExamplesShowHalf]
  constructor
  · rintro ⟨e, he, hprovider | hshows⟩
    · exact ⟨List.ne_nil_of_mem he, .inl hprovider⟩
    · exact ⟨List.ne_nil_of_mem he, .inr ⟨e, he, hshows⟩⟩
  · rintro ⟨hne, hprovider | ⟨e, he, hshows⟩⟩
    · obtain ⟨e, he⟩ := List.exists_mem_of_ne_nil _ hne
      exact ⟨e, he, .inl hprovider⟩
    · exact ⟨e, he, .inr hshows⟩

/-- The other reports show of a failure only what the report on examples shows as well. -/
theorem not_hasHalf_of_failed (h : ¬ r.ExamplesShowHalf) {a : Attempt} (ha : a ∈ r.conversions)
    (hfailed : a.succeeded = false) : ¬ a.language.HasHalf ∧ ¬ a.detail.HasHalf := by
  obtain ⟨e, he, hmem⟩ := List.mem_flatMap.mp (r.conversions_perm_attempts.mem_iff.mp ha)
  have hfailedIn : a ∈ e.failedAttempts := List.mem_filter.mpr ⟨hmem, by simp [hfailed]⟩
  have hfailures : e.hasFailures = true := e.hasFailures_iff.mpr (List.ne_nil_of_mem hfailedIn)
  rw [← not_or]
  intro hhalf
  apply h
  exact ⟨List.ne_nil_of_mem he, .inr ⟨e, he, .inr ⟨hfailures, .inr ⟨a, hfailedIn, hhalf⟩⟩⟩⟩

theorem hasHalf_language_iff (h : ¬ r.ExamplesShowHalf) :
    (∃ a ∈ r.conversions, a.language.HasHalf) ↔ r.SuccessHasHalf := by
  constructor
  · rintro ⟨a, ha, hhalf⟩
    obtain ⟨e, he, hmem⟩ := List.mem_flatMap.mp (r.conversions_perm_attempts.mem_iff.mp ha)
    cases hsucceeded : a.succeeded with
    | true => exact ⟨e, he, a, hmem, hsucceeded, hhalf⟩
    | false => exact absurd hhalf (r.not_hasHalf_of_failed h ha hsucceeded).1
  · rintro ⟨e, he, a, ha, -, hhalf⟩
    have hmem : a ∈ r.attempts := List.mem_flatMap.mpr ⟨e, he, ha⟩
    exact ⟨a, r.conversions_perm_attempts.mem_iff.mpr hmem, hhalf⟩

theorem not_hasHalf_reason (h : ¬ r.ExamplesShowHalf) {attempts : List Attempt}
    (hsub : attempts ⊆ r.conversions) (limit : Option Int) :
    ¬ ∃ e ∈ (Tally.ofAttempts attempts).errors.frequent limit, e.reason.HasHalf := by
  rintro ⟨e, he, hhalf⟩
  obtain ⟨a, ha, hfailed, hreason⟩ := (Tally.counts_ofAttempts _).exists_of_mem_frequent he
  exact (r.not_hasHalf_of_failed h (hsub ha) hfailed).2 (hreason ▸ hhalf)

theorem hasHalf_digest : r.digest.HasHalf ↔
    r.provider.HasHalf ∨ ∃ a ∈ r.conversions, a.language.HasHalf := by
  have hnewline : ¬ Text.HasHalf "\n" := Text.not_hasHalf_ofString _
  have hlanguage (language : Text) (c : Digest.Counter) :
      (Digest.languageLine language c).HasHalf ↔ language.HasHalf := by
    simp [Digest.languageLine, Digest.Counter.rateText, Digest.Counter.ratioText]
  have hoverall (c : Digest.Counter) : ¬ (Digest.overallLine c).HasHalf := by
    simp [Digest.overallLine, Digest.Counter.rateText, Digest.Counter.ratioText]
  rw [digest_eq_lines, Text.hasHalf_append, or_iff_left hnewline, Text.hasHalf_join hnewline,
    Digest.lines]
  simp [hlanguage, hoverall, Text.mem_distinct]

theorem hasHalf_summary_of_indent {s : Settings} (h : s.indent.HasHalf) :
    (Report.summary.content r s).HasHalf := by
  have hstart : ((Json.Layout.indented s.indent).lineStart 1).HasHalf := by
    simp [Json.Layout.indented, Json.Layout.lineStart, Text.repeated, h]
  rw [Report.content, Json.toText, ProviderStatistic.toJson]
  simp [Json.member, Json.print, hstart]

variable {s : Settings} (hindent : ¬ s.indent.HasHalf) (h : ¬ r.ExamplesShowHalf)
include hindent h

theorem hasHalf_byLanguage :
    (Report.byLanguage.content r s).HasHalf ↔ r.SuccessHasHalf := by
  have hreasons (language : Text) : ¬ ∃ e ∈ (Tally.ofAttempts
      (r.conversions.filter fun a => a.language = language)).errors.frequent s.limit,
        e.reason.HasHalf :=
    r.not_hasHalf_reason h (fun _ ha => List.mem_of_mem_filter ha) s.limit
  rw [← r.hasHalf_language_iff h, Report.content, Json.toText,
    Json.hasHalf_print (Json.halfless_indented hindent), languageReport, Json.hasHalf_object,
    languageStatistics_eq]
  simp only [List.mem_map, exists_exists_and_eq_and, LanguageStatistic.hasHalf_toJson,
    LanguageStatistic.ofTally, hreasons, or_false, Text.mem_distinct]

theorem hasHalf_summary :
    (Report.summary.content r s).HasHalf ↔ r.ProviderHasHalf := by
  have hreasons := r.not_hasHalf_reason h (List.Subset.refl _) s.limit
  rw [Report.content, Json.toText, Json.hasHalf_print (Json.halfless_indented hindent),
    ProviderStatistic.hasHalf_toJson]
  simp only [providerStatistic, hreasons, or_false]
  rfl

end Record

end ConversionCoverage
