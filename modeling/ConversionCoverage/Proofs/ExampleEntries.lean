import ConversionCoverage.Proofs.Buckets
import ConversionCoverage.Report.ByExample
import Mathlib.Data.List.Forall2

/-!
# The report on examples is exact

The report has one entry for each example, in the strict order of their names. An entry tells what
its example is called, whether an attempt found several translations, and which attempts did not
succeed. Members that have nothing to tell are left out.
-/

namespace ConversionCoverage

namespace Example

theorem hasFailures_iff_exists (e : Example) :
    e.hasFailures = true ↔ ∃ a ∈ e.attempts, a.severity ≠ .success := by
  simp [hasFailures, Attempt.succeeded]

private theorem failedAttempts_eq (e : Example) :
    e.failedAttempts = e.attempts.filter fun a => a.severity ≠ .success := by
  simp [failedAttempts, Attempt.succeeded]

private theorem isDuplicated_eq (e : Example) :
    e.isDuplicated = decide (∃ a ∈ e.attempts, a.multiple = true) := by
  rw [Bool.eq_iff_iff, decide_eq_true_iff, isDuplicated, List.any_eq_true]

end Example

namespace ExampleReport

/-- The names that members of an entry have, in their order. -/
def memberNames : List Text :=
  ["ProviderName", "ProviderVersion", "ExampleName", "OriginalSource", "IsDuplicated",
    "FailedLanguages"]

theorem names_sublist (report : ExampleReport) :
    (report.members.map Prod.fst).Sublist memberNames := by
  have hnames (p q : Bool) : (["ProviderName", "ProviderVersion", "ExampleName"] ++
      (if p then [] else ["OriginalSource"]) ++ ["IsDuplicated"] ++
      (if q then [] else ["FailedLanguages"]) : List Text).Sublist memberNames := by
    cases p <;> cases q <;> decide
  unfold members
  split
  · split
    · exact hnames true true
    · exact hnames true false
  · split
    · exact hnames false true
    · exact hnames false false

private theorem get?_source (report : ExampleReport) : report.toJson.get? "OriginalSource" =
    if report.source = [] then none else some (.text report.source) := by
  unfold toJson members
  split
  · split <;> rfl
  · rfl

private theorem get?_isDuplicated (report : ExampleReport) :
    report.toJson.get? "IsDuplicated" = some (.bool report.isDuplicated) := by
  unfold toJson members
  split <;> rfl

theorem get?_failed (report : ExampleReport) : report.toJson.get? "FailedLanguages" =
    if report.failed = [] then none
    else some (.array (report.failed.map Attempt.toJson)) := by
  unfold toJson members
  split
  · split <;> rfl
  · split <;> rfl

/-- The entry says of an example of a record what there is to say. -/
structure Describes (report : ExampleReport) (r : Record) (e : Example) : Prop where
  provider : report.provider = r.provider
  version : report.version = r.version
  name : report.name = e.name
  order : (report.toJson.members.map Prod.fst).Sublist memberNames
  providerMember : report.toJson.get? "ProviderName" = some (.text r.provider)
  versionMember : report.toJson.get? "ProviderVersion" = some (.text r.version)
  nameMember : report.toJson.get? "ExampleName" = some (.text e.name)
  sourceMember : report.toJson.get? "OriginalSource" =
    if (∃ a ∈ e.attempts, a.severity ≠ .success) ∧ e.source ≠ [] then some (.text e.source)
    else none
  duplicatedMember : report.toJson.get? "IsDuplicated" =
    some (.bool (decide (∃ a ∈ e.attempts, a.multiple = true)))
  failedMember : report.toJson.get? "FailedLanguages" =
    if ∃ a ∈ e.attempts, a.severity ≠ .success then
      some (.array ((e.attempts.filter fun a => a.severity ≠ .success).map Attempt.toJson))
    else none

private theorem describes_ofExample (r : Record) (e : Example) : (ofExample r e).Describes r e where
  provider := rfl
  version := rfl
  name := rfl
  order := names_sublist _
  providerMember := rfl
  versionMember := rfl
  nameMember := rfl
  sourceMember := by
    simp only [get?_source, ← e.hasFailures_iff_exists]
    by_cases hfailures : e.hasFailures = true
    · by_cases hsource : e.source = [] <;> simp [ofExample, hfailures, hsource]
    · simp [ofExample, hfailures]
  duplicatedMember := by
    rw [get?_isDuplicated, ← e.isDuplicated_eq]
    rfl
  failedMember := by
    simp only [get?_failed, ← e.hasFailures_iff_exists, ← e.failedAttempts_eq]
    by_cases hfailures : e.hasFailures = true
    · have hfailed : e.failedAttempts ≠ [] := e.hasFailures_iff.mp hfailures
      simp [ofExample, hfailures, hfailed]
    · have hfailed : e.failedAttempts = [] := not_ne_iff.mp (mt e.hasFailures_iff.mpr hfailures)
      simp [ofExample, hfailures, hfailed]

end ExampleReport

namespace Record

private theorem pairwise_names (r : Record) :
    (r.sortedExamples.map Example.name).Pairwise (· < ·) := by
  apply Text.pairwise_lt_of_le
  · exact List.pairwise_map.mpr r.pairwise_sortedExamples
  · exact (r.sortedExamples_perm.map Example.name).nodup_iff.mpr r.names_nodup

/-- The entries come in strictly increasing order of their names, and between them and the examples
of the record there is a correspondence of one to one, by which each entry describes its example. -/
theorem exampleReports_exact (r : Record) :
    (r.exampleReports.map ExampleReport.name).Pairwise (· < ·) ∧
      ∃ listed : List Example, listed.Perm r.examples ∧
        List.Forall₂ (fun report e => report.Describes r e) r.exampleReports listed := by
  refine ⟨?_, r.sortedExamples, r.sortedExamples_perm, ?_⟩
  · have hnames : r.exampleReports.map ExampleReport.name = r.sortedExamples.map Example.name := by
      rw [exampleReports, List.map_map]
      rfl
    rw [hnames]
    exact r.pairwise_names
  · rw [exampleReports, List.forall₂_map_left_iff, List.forall₂_same]
    intro e _
    exact ExampleReport.describes_ofExample r e

end Record

end ConversionCoverage
