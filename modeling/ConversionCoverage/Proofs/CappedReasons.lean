import ConversionCoverage.Export
import ConversionCoverage.Proofs.Languages

/-!
# A cap on the reasons

Settings may cap the number of reasons that the reports list. The cap is put on rankings that are
complete, so that the most frequent reasons stay, and it makes no other difference to any report.
-/

namespace ConversionCoverage

namespace Histogram

/-- The first `k` of a list of counts, where there are so many. Every count that is dropped has a
smaller number than each that is kept, or an equal one and a smaller reason. -/
def KeepsFirst (k : Nat) (counts kept : List ErrorCount) : Prop :=
  ∃ dropped, counts = kept ++ dropped ∧ kept.length = min k counts.length ∧
    ∀ e ∈ kept, ∀ d ∈ dropped, d.count < e.count ∨ d.count = e.count ∧ d.reason < e.reason

private theorem keepsFirst_frequent (h : Histogram) (hn : (h.map ErrorCount.reason).Nodup)
    (k : Nat) :
    KeepsFirst k (h.frequent none) (h.frequent (some k)) := by
  obtain ⟨dropped, hsplit, hlength⟩ := exists_dropped k h.ranked
  rw [if_pos (Int.natCast_nonneg k), Int.natAbs_natCast] at hlength
  have hordered : (limited (some k) h.ranked ++ dropped).Pairwise ErrorCount.Outranks :=
    hsplit ▸ pairwise_ranked h hn
  exact ⟨dropped, hsplit, hlength, (List.pairwise_append.mp hordered).2.2⟩

end Histogram

/-- A statistic as it becomes by a cap of `k` reasons. -/
structure LanguageStatistic.CappedAt (k : Nat) (whole capped : LanguageStatistic) : Prop where
  total : capped.total = whole.total
  shares : capped.shares = whole.shares
  errors : Histogram.KeepsFirst k whole.frequentErrors capped.frequentErrors

/-- A summary as it becomes by a cap of `k` reasons. -/
structure ProviderStatistic.CappedAt (k : Nat) (whole capped : ProviderStatistic) : Prop where
  name : capped.name = whole.name
  version : capped.version = whole.version
  examples : capped.examples = whole.examples
  total : capped.totalConversions = whole.totalConversions
  shares : capped.shares = whole.shares
  errors : Histogram.KeepsFirst k whole.conversionErrors capped.conversionErrors

namespace Tally

theorem keepsFirst_ofAttempts (attempts : List Attempt) (k : Nat) :
    Histogram.KeepsFirst k ((ofAttempts attempts).errors.frequent none)
      ((ofAttempts attempts).errors.frequent (some k)) :=
  Histogram.keepsFirst_frequent _ (counts_ofAttempts attempts).proper.nodup k

private theorem cappedAt_ofTally (attempts : List Attempt) (k : Nat) :
    (LanguageStatistic.ofTally none (ofAttempts attempts)).CappedAt k
      (.ofTally (some k) (ofAttempts attempts)) where
  total := rfl
  shares := rfl
  errors := keepsFirst_ofAttempts attempts k

end Tally

namespace Record

private theorem languageStatistics_cappedAt (r : Record) (k : Nat) :
    List.Forall₂ (fun a b => b.1 = a.1 ∧ a.2.CappedAt k b.2)
      (r.languageStatistics none) (r.languageStatistics (some k)) := by
  rw [languageStatistics_eq, languageStatistics_eq, List.forall₂_map_left_iff,
    List.forall₂_map_right_iff, List.forall₂_same]
  intro language _
  exact ⟨rfl, Tally.cappedAt_ofTally _ k⟩

private theorem providerStatistic_cappedAt (r : Record) (k : Nat) :
    (r.providerStatistic none).CappedAt k (r.providerStatistic (some k)) where
  name := rfl
  version := rfl
  examples := rfl
  total := rfl
  shares := rfl
  errors := Tally.keepsFirst_ofAttempts r.conversions k

/-- Whatever else the settings say, with a cap the reports on languages and on the provider list the
first reasons of those that they list without one, and nothing else in any report is different. -/
theorem reports_capped (r : Record) (s t : Settings) (cap : Cap) :
    let whole : Settings := { s with topErrors := none }
    let capped : Settings := { t with topErrors := some cap }
    Report.byExample.content r capped = Report.byExample.content r whole ∧
      Report.digest.content r capped = Report.digest.content r whole ∧
      List.Forall₂ (fun a b => b.1 = a.1 ∧ a.2.CappedAt cap b.2)
        (r.languageStatistics whole.limit) (r.languageStatistics capped.limit) ∧
      (r.providerStatistic whole.limit).CappedAt cap (r.providerStatistic capped.limit) :=
  ⟨rfl, rfl, r.languageStatistics_cappedAt cap, r.providerStatistic_cappedAt cap⟩

end Record

end ConversionCoverage
