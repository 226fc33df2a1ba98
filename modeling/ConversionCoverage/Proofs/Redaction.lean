import ConversionCoverage.Export
import ConversionCoverage.Proofs.Agreement

/-!
# What the reports count

Of an attempt that succeeded no report hears the detail, and the reports that count do not hear in
which order the attempts were made. Two records that are alike in what is left get the same report
on languages, the same summary and the same digest.
-/

namespace ConversionCoverage

theorem Text.distinct_congr {ts us : List Text} (h : ∀ t, t ∈ ts ↔ t ∈ us) :
    distinct ts = distinct us := by
  apply (pairwise_distinct ts).eq_of_mem_iff (pairwise_distinct us)
  intro t
  rw [mem_distinct, mem_distinct, h]

namespace Attempt

/-- The attempt without what is not heard of it, which is the detail of one that succeeded. -/
def redacted (a : Attempt) : Attempt :=
  { a with detail := if a.succeeded then [] else a.detail }

@[simp] theorem language_redacted (a : Attempt) : a.redacted.language = a.language := rfl

@[simp] theorem severity_redacted (a : Attempt) : a.redacted.severity = a.severity := rfl

@[simp] theorem multiple_redacted (a : Attempt) : a.redacted.multiple = a.multiple := rfl

@[simp] theorem succeeded_redacted (a : Attempt) : a.redacted.succeeded = a.succeeded := rfl

theorem redacted_of_failed {a : Attempt} (h : a.succeeded = false) : a.redacted = a := by
  simp [redacted, h]

theorem reasonCount_redacted (attempts : List Attempt) (reason : Text) :
    reasonCount (attempts.map redacted) reason = reasonCount attempts reason := by
  rw [reasonCount, reasonCount, List.countP_map]
  apply List.countP_congr
  intro a _
  cases ha : a.succeeded with
  | true => simp [ha]
  | false => simp [redacted_of_failed ha, ha]

theorem filter_language_redacted (attempts : List Attempt) (language : Text) :
    ((attempts.map redacted).filter fun a => a.language = language) =
      (attempts.filter fun a => a.language = language).map redacted := by
  rw [List.filter_map]
  rfl

end Attempt

/-! ## Tallies of the same attempts -/

namespace Tally

variable {t t' : Tally}

/-- A tally does not tell apart lists of attempts that differ in their order or in the details of
successes. -/
theorem Counts.congr {xs ys : List Attempt} (h : t.Counts xs)
    (hp : (xs.map Attempt.redacted).Perm (ys.map Attempt.redacted)) : t.Counts ys where
  total := by
    have hlength := hp.length_eq
    rw [List.length_map, List.length_map] at hlength
    rw [h.total, hlength]
  number severity := by
    have hcount := hp.countP_eq fun a => a.severity = severity
    rw [List.countP_map, List.countP_map] at hcount
    exact (h.number severity).trans hcount
  proper := h.proper
  errors reason := by
    have hcount : Attempt.reasonCount (xs.map Attempt.redacted) reason =
        Attempt.reasonCount (ys.map Attempt.redacted) reason := hp.countP_eq _
    rw [h.errors, ← Attempt.reasonCount_redacted xs, hcount, Attempt.reasonCount_redacted]

namespace SameCounts

variable (h : t.SameCounts t')
include h

theorem counter_eq : Digest.Counter.ofTally t = .ofTally t' := by
  have hsuccesses : t.successes = t'.successes := h.number .success
  rw [Digest.Counter.ofTally, Digest.Counter.ofTally, h.total, hsuccesses]

theorem shares_eq : t.shares = t'.shares := by
  have hsuccesses : t.successes = t'.successes := h.number .success
  have hwarnings : t.warnings = t'.warnings := h.number .warning
  have hfailures : t.failures = t'.failures := h.number .failure
  have hfatals : t.fatals = t'.fatals := h.number .fatal
  rw [shares, shares, h.total, hsuccesses, hwarnings, hfailures, hfatals]

variable (hproper : t'.errors.Proper) (limit : Option Int)
include hproper

theorem frequent_eq : t.errors.frequent limit = t'.errors.frequent limit :=
  Histogram.frequent_eq_of_perm h.errors hproper.nodup limit

private theorem statistic_eq : LanguageStatistic.ofTally limit t = .ofTally limit t' := by
  rw [LanguageStatistic.ofTally, LanguageStatistic.ofTally, h.total, h.shares_eq,
    h.frequent_eq hproper]

end SameCounts

end Tally

/-! ## Records of the same attempts -/

/-- The digest of a list of attempts, one tally being kept for all of them and one for those of each
language. -/
def Digest.lines (provider : Text) (attempts : List Attempt) : List Text :=
  ["Provider:     " ++ provider, overallLine (.ofTally (Tally.ofAttempts attempts)), []] ++
    (Text.distinct (attempts.map Attempt.language)).map fun language =>
      languageLine language
        (.ofTally (Tally.ofAttempts (attempts.filter fun a => a.language = language)))

namespace Record

theorem digest_eq_lines (r : Record) :
    r.digest = Text.join "\n" (Digest.lines r.provider r.conversions) ++ "\n" := by
  have hlanguages : (LanguageTallies.ofAttempts r.conversions).sorted =
      (Text.distinct (r.conversions.map Attempt.language)).map fun language =>
        (language, Tally.ofAttempts (r.conversions.filter fun a => a.language = language)) :=
    Buckets.sorted_collect _ _ _ _
  rw [digest, Digest.Counters.ofAttempts_eq]
  simp only [Buckets.sorted_map, hlanguages, List.map_map, Function.comp_def]
  rfl

/-- Two records of one provider that have equally many examples and the same attempts, apart from
their order and from the details of successes. -/
structure CountsAlike (r r' : Record) : Prop where
  provider : r.provider = r'.provider
  version : r.version = r'.version
  examples : r.examples.length = r'.examples.length
  attempts : (r.attempts.map Attempt.redacted).Perm (r'.attempts.map Attempt.redacted)

namespace CountsAlike

variable {r r' : Record} (h : r.CountsAlike r')
include h

theorem conversions : (r.conversions.map Attempt.redacted).Perm
    (r'.conversions.map Attempt.redacted) :=
  (r.conversions_perm_attempts.map _).trans
    (h.attempts.trans (r'.conversions_perm_attempts.map _).symm)

theorem languages : Text.distinct (r.conversions.map Attempt.language) =
    Text.distinct (r'.conversions.map Attempt.language) := by
  have hperm := h.conversions.map Attempt.language
  rw [List.map_map, List.map_map] at hperm
  exact Text.distinct_congr fun t => hperm.mem_iff

theorem sameCounts :
    (Tally.ofAttempts r.conversions).SameCounts (Tally.ofAttempts r'.conversions) :=
  (Tally.counts_ofAttempts _).sameCounts
    ((Tally.counts_ofAttempts _).congr h.conversions.symm)

theorem sameCounts_for (language : Text) :
    (Tally.ofAttempts (r.conversions.filter fun a => a.language = language)).SameCounts
      (Tally.ofAttempts (r'.conversions.filter fun a => a.language = language)) := by
  apply (Tally.counts_ofAttempts _).sameCounts
  apply (Tally.counts_ofAttempts _).congr
  rw [← Attempt.filter_language_redacted, ← Attempt.filter_language_redacted]
  exact h.conversions.symm.filter _

theorem languageStatistics_eq (limit : Option Int) :
    r.languageStatistics limit = r'.languageStatistics limit := by
  rw [Record.languageStatistics_eq, Record.languageStatistics_eq, h.languages]
  apply List.map_congr_left
  intro language _
  rw [(h.sameCounts_for language).statistic_eq (Tally.counts_ofAttempts _).proper]

theorem providerStatistic_eq (limit : Option Int) :
    r.providerStatistic limit = r'.providerStatistic limit := by
  have hproper := (Tally.counts_ofAttempts r'.conversions).proper
  simp only [providerStatistic, h.provider, h.version, h.examples, h.sameCounts.total,
    h.sameCounts.shares_eq, h.sameCounts.frequent_eq hproper]

theorem digest_eq : r.digest = r'.digest := by
  have hlanguage (language : Text) := (h.sameCounts_for language).counter_eq
  simp only [digest_eq_lines, Digest.lines, h.provider, h.languages, h.sameCounts.counter_eq,
    hlanguage]

end CountsAlike

end Record

/-! ## Exports of the same reports -/

/-- The reports that count say the same of records that count alike. -/
theorem Report.content_counts {r r' : Record} (h : r.CountsAlike r') (s : Settings) {kind : Report}
    (hkind : kind ≠ .byExample) : kind.content r s = kind.content r' s := by
  cases kind with
  | byExample => exact absurd rfl hkind
  | byLanguage =>
    rw [content, content, Record.languageReport, Record.languageReport, h.languageStatistics_eq]
  | summary => rw [content, content, h.providerStatistic_eq]
  | digest => exact h.digest_eq

theorem Report.content_congr {r r' : Record} (h : r.CountsAlike r')
    (hexamples : r.exampleReports = r'.exampleReports) (s : Settings) (kind : Report) :
    kind.content r s = kind.content r' s := by
  by_cases hkind : kind = .byExample
  · rw [hkind, content, content, hexamples]
  · exact content_counts h s hkind

namespace Export

variable {r r' : Record} {s : Settings} (h : ∀ kind : Report, kind.content r s = kind.content r' s)
include h

variable [Host]

private theorem report_congr (kind : Report) (directory : FilePath) (fileName : Text) :
    report r s kind directory fileName = report r' s kind directory fileName := by
  rw [report, report, h]

theorem all_congr (directory : FilePath) : all r s directory = all r' s directory := by
  have hreports (kinds : List Report) :
      reports r s directory kinds = reports r' s directory kinds := by
    induction kinds with
    | nil => rfl
    | cons kind rest ih => rw [reports, reports, report_congr h, ih]
  exact hreports Report.all

end Export

end ConversionCoverage
