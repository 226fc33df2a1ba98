import ConversionCoverage.Proofs.Languages
import ConversionCoverage.Report.ByExample
import ConversionCoverage.Report.Digest
import ConversionCoverage.Report.Summary

/-!
# The reports agree

The four reports on a record are made by passes of their own, and yet they tell the same. The
summary is what the report on languages comes to when all languages are taken together, the digest
is the text of both, and the entries of the report on examples are the failures that both count.
-/

namespace ConversionCoverage

/-! ## Summary and languages -/

/-- The summary has the sums over all languages, and it ranks each reason by the sum of the numbers
that the languages give for it. -/
theorem Record.providerStatistic_collapses (r : Record) :
    let summary := r.providerStatistic none
    let stats := r.languageStatistics none
    summary.totalConversions = (stats.map fun (_, s) => s.total).sum ∧
      (∀ severity, (summary.shares.share severity).number =
        (stats.map fun (_, s) => (s.shares.share severity).number).sum) ∧
      Histogram.Ranks summary.conversionErrors (fun reason =>
        (stats.map fun (_, s) => Histogram.count s.frequentErrors reason).sum) ∧
      summary.examples = r.examples.length := by
  have hc := r.counts_conversions
  refine ⟨?_, ?_, ?_, rfl⟩
  · have hsum := r.sum_languageStatistics (fun s => s.total) (fun _ => true)
      (fun s xs h => by simp [h.total])
    rw [hsum]
    simp [providerStatistic, hc.total]
  · intro severity
    have hsum := r.sum_languageStatistics (fun s => (s.shares.share severity).number)
      (fun a => a.severity = severity) (fun s xs h => by simp [h.number])
    rw [hsum]
    simp [providerStatistic, Tally.share_shares, Share.of, hc.number]
  · have hsum : (fun reason => ((r.languageStatistics none).map fun (_, s) =>
        Histogram.count s.frequentErrors reason).sum) =
          (Tally.ofAttempts r.conversions).errors.count := by
      funext reason
      rw [hc.errors, Attempt.reasonCount]
      exact r.sum_languageStatistics _ _ (fun s xs h => h.count_errors reason)
    rw [hsum]
    exact hc.proper.ranks

/-! ## Digest, summary and languages -/

namespace Digest

/-- What a counter takes from a tally. -/
def Counter.ofTally (t : Tally) : Counter := ⟨t.successes, t.total⟩

theorem Counter.add_ofTally (t : Tally) (a : Attempt) :
    (ofTally t).add a = ofTally (t.add a) := by
  cases ha : a.severity <;> simp [ofTally, add, Tally.add, Attempt.succeeded, ha]

private theorem Counters.foldl_add (c : Counters) (attempts : List Attempt) :
    attempts.foldl add c = ⟨attempts.foldl Counter.add c.overall,
      attempts.foldl (Buckets.add Attempt.language .zero Counter.add) c.languages⟩ := by
  induction attempts generalizing c with
  | nil => rfl
  | cons a attempts ih =>
    rw [List.foldl_cons, ih]
    rfl

theorem Counters.ofAttempts_eq (attempts : List Attempt) :
    ofAttempts attempts = ⟨.ofTally (Tally.ofAttempts attempts),
      (LanguageTallies.ofAttempts attempts).map fun (language, t) => (language, .ofTally t)⟩ := by
  have hoverall : attempts.foldl Counter.add (.ofTally .empty) =
      .ofTally (Tally.ofAttempts attempts) := List.foldl_hom Counter.ofTally Counter.add_ofTally
  have hlanguages := Buckets.collect_map Attempt.language Counter.ofTally Tally.empty Tally.add
    Counter.add Counter.add_ofTally attempts
  rw [ofAttempts, foldl_add]
  exact congrArg₂ Counters.mk hoverall hlanguages

/-- The lines of the digest as the two statistics tell them. -/
def statisticLines (summary : ProviderStatistic) (stats : List (Text × LanguageStatistic)) :
    List Text :=
  ["Provider:     " ++ summary.name,
    "Success rate: " ++ summary.shares.successes.pct.toFixed 2 ++ "% (" ++
      Text.ofNat summary.shares.successes.number ++ "/" ++
      Text.ofNat summary.totalConversions ++ ")",
    []] ++
    stats.map fun (language, s) =>
      "Converted " ++ s.shares.successes.pct.toFixed 2 ++ "% of " ++ language ++ " examples (" ++
        Text.ofNat s.shares.successes.number ++ "/" ++ Text.ofNat s.total ++ ")"

private theorem overallLine_ofTally (t : Tally) :
    overallLine (.ofTally t) = "Success rate: " ++ t.shares.successes.pct.toFixed 2 ++ "% (" ++
      Text.ofNat t.shares.successes.number ++ "/" ++ Text.ofNat t.total ++ ")" := by
  have hsplit : ("% (" : Text) = "%" ++ (" " ++ "(") := rfl
  simp only [overallLine, Counter.rateText, Counter.ratioText, hsplit, List.append_assoc]
  rfl

private theorem languageLine_ofTally (language : Text) (t : Tally) :
    languageLine language (.ofTally t) = "Converted " ++ t.shares.successes.pct.toFixed 2 ++
      "% of " ++ language ++ " examples (" ++ Text.ofNat t.shares.successes.number ++ "/" ++
      Text.ofNat t.total ++ ")" := by
  have hof : ("% of " : Text) = "%" ++ " of " := rfl
  have hexamples : (" examples (" : Text) = " examples " ++ "(" := rfl
  simp only [languageLine, Counter.rateText, Counter.ratioText, hof, hexamples,
    List.append_assoc]
  rfl

end Digest

/-- The digest, which counts on its own, is the text of the summary and of the report on
languages. -/
theorem Record.digest_eq_statistics (r : Record) (limit : Option Int) :
    r.digest = Text.join "\n"
      (Digest.statisticLines (r.providerStatistic limit) (r.languageStatistics limit)) ++ "\n" := by
  rw [digest, Digest.Counters.ofAttempts_eq]
  simp only [Digest.statisticLines, languageStatistics, Buckets.sorted_map, List.map_map,
    Function.comp_def, Digest.overallLine_ofTally, Digest.languageLine_ofTally]
  rfl

/-! ## Examples, languages and summary -/

namespace Attempt

private theorem countP_failed_severity (attempts : List Attempt) (severity : Severity) :
    (attempts.countP fun a => !a.succeeded && a.severity = severity) =
      if severity = .success then 0 else attempts.countP fun a => a.severity = severity := by
  by_cases hs : severity = .success
  · rw [if_pos hs, List.countP_eq_zero]
    intro a _
    simp [succeeded, hs]
  · rw [if_neg hs]
    apply List.countP_congr
    intro a _
    by_cases ha : a.severity = severity
    · simp [succeeded, ha, hs]
    · simp [ha]

end Attempt

namespace Record

theorem flatMap_failed_perm (r : Record) :
    (r.exampleReports.flatMap ExampleReport.failed).Perm
      (r.attempts.filter fun a => !a.succeeded) := by
  have heq : r.exampleReports.flatMap ExampleReport.failed =
      r.conversions.filter fun a => !a.succeeded := by
    rw [exampleReports, conversions, List.flatMap_map, List.filter_flatMap]
    rfl
  rw [heq]
  exact r.conversions_perm_attempts.filter _

theorem countP_failed_for (r : Record) (language : Text) (q : Attempt → Bool) :
    ((r.exampleReports.flatMap ExampleReport.failed).countP fun a => a.language = language && q a) =
      (r.attemptsFor language).countP fun a => !a.succeeded && q a := by
  rw [r.flatMap_failed_perm.countP_eq, attemptsFor, List.countP_filter, List.countP_filter]
  apply List.countP_congr
  intro a _
  simp only [Bool.and_eq_true]
  tauto

/-- The entries of the report on examples are the failures that the report on languages counts for
each severity and each reason, and the summary for all languages. -/
theorem exampleReports_reconcile (r : Record) :
    let entries := r.exampleReports.flatMap ExampleReport.failed
    let stats := r.languageStatistics none
    let summary := r.providerStatistic none
    (∀ language severity,
      (entries.countP fun a => a.language = language && a.severity = severity) =
        if severity = .success then 0
        else (stats.lookup language).elim 0 fun s => (s.shares.share severity).number) ∧
      (∀ language reason,
        (entries.countP fun a => a.language = language && a.detail = reason : Int) =
          (stats.lookup language).elim 0 fun s => Histogram.count s.frequentErrors reason) ∧
      entries.length = summary.shares.warnings.number + summary.shares.failures.number +
        summary.shares.fatals.number ∧
      r.exampleReports.length = summary.examples := by
  refine ⟨?_, ?_, ?_, ?_⟩
  · intro language severity
    rw [r.countP_failed_for language, Attempt.countP_failed_severity,
      r.elim_lookup language 0 (fun s => (s.shares.share severity).number)
        (fun xs => xs.countP fun a => a.severity = severity) (fun s xs h => h.number severity) rfl]
  · intro language reason
    rw [r.countP_failed_for language,
      r.elim_lookup language 0 (fun s => Histogram.count s.frequentErrors reason)
        (fun xs => (Attempt.reasonCount xs reason : Int)) (fun s xs h => h.count_errors reason) rfl]
    rfl
  · rw [r.flatMap_failed_perm.length_eq, ← List.countP_eq_length_filter, Attempt.countP_failed]
    simp only [← r.counts_conversions.number]
    rfl
  · simp only [exampleReports, List.length_map, r.sortedExamples_perm.length_eq]
    rfl

end Record

end ConversionCoverage
