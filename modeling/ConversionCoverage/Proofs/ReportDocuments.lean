import ConversionCoverage.Proofs.ExampleEntries
import ConversionCoverage.Proofs.JsonRoundTrip
import ConversionCoverage.Proofs.Languages
import ConversionCoverage.Record.Schema
import ConversionCoverage.Report.Summary

/-!
# Reports as documents

The values that the reports are printed from can be read back: the names in each of their objects
are different, their doubles are percentages, and no integer in them is larger than the number of
attempts or of examples.
-/

namespace ConversionCoverage

namespace Binary64

theorem stored_rate (count total : Int) : (Percentage.rate count total).Stored := by
  unfold Percentage.rate
  split
  · exact stored_zero false
  · exact stored_mul _ _

end Binary64

open Json (Readable)

namespace Attempt

theorem readable_toJson (a : Attempt) (depth : Nat) :
    Readable Numeral.maxDigits (depth + 1) a.toJson := by
  have hseverity : Binary64.digitCount a.severity.toNat ≤ Numeral.maxDigits := by
    cases a.severity <;> decide
  apply Readable.object
  · exact (by decide : (["TargetLanguage", "FailureSeverity", "FailureInfo",
      "MultipleTranslations"] : List Text).Nodup)
  · intro m hm
    simp only [List.mem_cons, List.not_mem_nil, or_false] at hm
    rcases hm with rfl | rfl | rfl | rfl
    · exact .text _
    · exact .int hseverity
    · exact .text _
    · exact .bool _

variable [Host]

theorem ofDatum_ofJson (a : Attempt) : ofDatum (Datum.ofJson a.toJson) = .ok a := by
  obtain ⟨language, severity, detail, multiple⟩ := a
  cases severity <;> rfl

end Attempt

namespace ExampleReport

private theorem nodup_members (report : ExampleReport) : (report.members.map Prod.fst).Nodup :=
  report.names_sublist.nodup (by decide)

theorem readable_toJson [Host] (report : ExampleReport) :
    Readable Numeral.maxDigits (Host.room .reading) report.toJson := by
  obtain ⟨depth, hroom⟩ := Host.exists_room .reading
  have hfailed :
      Readable Numeral.maxDigits (depth + 15) (.array (report.failed.map Attempt.toJson)) := by
    apply Readable.array
    intro j hj
    obtain ⟨a, -, rfl⟩ := List.mem_map.mp hj
    exact a.readable_toJson _
  rw [hroom]
  refine Readable.object report.nodup_members ?_
  intro m hm
  simp only [members, List.mem_append] at hm
  rcases hm with ((hm | hm) | hm) | hm
  · simp only [List.mem_cons, List.not_mem_nil, or_false] at hm
    rcases hm with rfl | rfl | rfl <;> exact .text _
  · split at hm
    · cases hm
    · obtain rfl := List.mem_singleton.mp hm
      exact .text _
  · obtain rfl := List.mem_singleton.mp hm
    exact .bool _
  · split at hm
    · cases hm
    · obtain rfl := List.mem_singleton.mp hm
      exact hfailed

/-- The entries under the name of the failed attempts, if there are any. -/
def failedEntries (j : Json) : List Json := (j.get? "FailedLanguages").elim [] Json.items

theorem failedEntries_toJson (report : ExampleReport) :
    failedEntries report.toJson = report.failed.map Attempt.toJson := by
  rw [failedEntries, get?_failed]
  split
  · rename_i hnone
    rw [hnone]
    rfl
  · rfl

end ExampleReport

section Counts

variable {maxDigits most : Nat} (hmost : Binary64.digitCount most ≤ maxDigits)
include hmost

theorem readable_count {n : Nat} (hn : n ≤ most) (depth : Nat) :
    Readable maxDigits depth (.int n) :=
  .int (Nat.le_trans (Binary64.digitCount_mono hn) hmost)

theorem Share.readable_toJson {number : Nat} (hn : number ≤ most) (total depth : Nat) :
    Readable maxDigits (depth + 1) (Share.of number total).toJson := by
  apply Readable.object
  · exact (by decide : (["Number", "Pct"] : List Text).Nodup)
  · intro m hm
    simp only [List.mem_cons, List.not_mem_nil, or_false] at hm
    rcases hm with rfl | rfl
    · exact readable_count hmost hn depth
    · exact .float (Binary64.stored_rate _ _)

theorem ErrorCount.readable_toJson {e : ErrorCount} (he : e.count.natAbs ≤ most) (depth : Nat) :
    Readable maxDigits (depth + 1) e.toJson := by
  apply Readable.object
  · exact (by decide : (["Reason", "Count"] : List Text).Nodup)
  · intro m hm
    simp only [List.mem_cons, List.not_mem_nil, or_false] at hm
    rcases hm with rfl | rfl
    · exact .text _
    · exact .int (Nat.le_trans (Binary64.digitCount_mono he) hmost)

end Counts

theorem Histogram.mem_of_mem_frequent {h : Histogram} {limit : Option Int} {e : ErrorCount}
    (he : e ∈ h.frequent limit) : e ∈ h := by
  have hranked : e ∈ h.ranked := by
    unfold frequent limited at he
    split at he
    · exact he
    · exact List.mem_of_mem_take he
    · exact List.mem_of_mem_take he
  exact h.ranked_perm.mem_iff.mp hranked

namespace Tally.Counts

variable {t : Tally} {attempts : List Attempt} (h : t.Counts attempts)
include h

theorem number_le (severity : Severity) : t.number severity ≤ attempts.length := by
  rw [h.number]
  exact List.countP_le_length

private theorem natAbs_count_le {limit : Option Int} {e : ErrorCount}
    (he : e ∈ t.errors.frequent limit) :
    e.count.natAbs ≤ attempts.length := by
  have hcount := Histogram.count_of_mem t.errors h.proper.nodup e (Histogram.mem_of_mem_frequent he)
  rw [← hcount, h.errors, Int.natAbs_natCast]
  exact List.countP_le_length

variable {maxDigits most : Nat} (hlength : attempts.length ≤ most)
  (hmost : Binary64.digitCount most ≤ maxDigits)
include hlength hmost

theorem readable_shares (depth : Nat) :
    ∀ m ∈ t.shares.members, Readable maxDigits (depth + 1) m.2 := by
  have hshare (severity : Severity) :
      Readable maxDigits (depth + 1) (Share.of (t.number severity) t.total).toJson :=
    Share.readable_toJson hmost (Nat.le_trans (h.number_le severity) hlength) _ _
  intro m hm
  simp only [Shares.members, List.mem_cons, List.not_mem_nil, or_false] at hm
  rcases hm with rfl | rfl | rfl | rfl
  · exact hshare .success
  · exact hshare .warning
  · exact hshare .failure
  · exact hshare .fatal

theorem readable_errors (limit : Option Int) (depth : Nat) :
    Readable maxDigits (depth + 2) (.array ((t.errors.frequent limit).map ErrorCount.toJson)) := by
  apply Readable.array
  intro j hj
  obtain ⟨e, he, rfl⟩ := List.mem_map.mp hj
  exact ErrorCount.readable_toJson hmost (Nat.le_trans (h.natAbs_count_le he) hlength) depth

private theorem readable_statistic (limit : Option Int) (depth : Nat) :
    Readable maxDigits (depth + 3) (LanguageStatistic.ofTally limit t).toJson := by
  apply Readable.object
  · exact (by decide : (["Total", "Successes", "Warnings", "Failures", "Fatals",
      "FrequentErrors"] : List Text).Nodup)
  · intro m hm
    simp only [List.mem_append, List.mem_singleton] at hm
    rcases hm with (rfl | hm) | rfl
    · exact readable_count hmost ((Nat.le_of_eq h.total).trans hlength) _
    · exact h.readable_shares hlength hmost _ m hm
    · exact h.readable_errors hlength hmost limit depth

end Tally.Counts

namespace Record

variable [Host] (r : Record) (limit : Option Int) {maxDigits : Nat}
  (hattempts : Binary64.digitCount r.conversions.length ≤ maxDigits)

omit [Host] in
theorem nodup_languages : ((r.languageStatistics limit).map Prod.fst).Nodup := by
  rw [languages_eq]
  exact Text.nodup_distinct _

include hattempts

theorem readable_languageReport :
    Readable maxDigits (Host.room .reading) (r.languageReport limit) := by
  obtain ⟨depth, hroom⟩ := Host.exists_room .reading
  have hnames : ((r.languageStatistics limit).map fun p => (p.1, p.2.toJson)).map Prod.fst =
      (r.languageStatistics limit).map Prod.fst := by
    rw [List.map_map]
    rfl
  rw [hroom]
  refine Readable.object (hnames ▸ r.nodup_languages limit) ?_
  rw [languageStatistics_eq]
  intro m hm
  obtain ⟨s, hs, rfl⟩ := List.mem_map.mp hm
  obtain ⟨language, -, rfl⟩ := List.mem_map.mp hs
  exact (Tally.counts_ofAttempts _).readable_statistic (List.length_filter_le _ _) hattempts
    limit _

theorem readable_providerStatistic
    (hexamples : Binary64.digitCount r.examples.length ≤ maxDigits) :
    Readable maxDigits (Host.room .reading) (r.providerStatistic limit).toJson := by
  obtain ⟨depth, hroom⟩ := Host.exists_room .reading
  have hcounts := Tally.counts_ofAttempts r.conversions
  rw [hroom]
  refine Readable.object ?_ ?_
  · exact (by decide : (["Name", "Version", "Examples", "TotalConversions", "Successes", "Warnings",
      "Failures", "Fatals", "ConversionErrors"] : List Text).Nodup)
  · intro m hm
    simp only [List.mem_append, List.mem_cons, List.not_mem_nil, or_false] at hm
    rcases hm with ((rfl | rfl | rfl | rfl) | hm) | rfl
    · exact .text _
    · exact .text _
    · exact .int hexamples
    · exact readable_count hattempts (Nat.le_of_eq hcounts.total) _
    · exact hcounts.readable_shares (Nat.le_refl _) hattempts _ m hm
    · exact hcounts.readable_errors (Nat.le_refl _) hattempts limit _

end Record

end ConversionCoverage
