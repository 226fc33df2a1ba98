import ConversionCoverage.Proofs.Buckets
import ConversionCoverage.Proofs.Tally
import Mathlib.Algebra.BigOperators.Ring.Finset

/-!
# The report on languages is exact

The report has an entry for each language that occurs in a record and for no other, and each entry
describes the attempts for its language, wherever in the record they stand.
-/

namespace ConversionCoverage

namespace Record

/-- Every attempt of every example, in the order in which the record lists them. -/
def attempts (r : Record) : List Attempt := r.examples.flatMap Example.attempts

def attemptsFor (r : Record) (language : Text) : List Attempt :=
  r.attempts.filter fun a => a.language = language

theorem conversions_perm_attempts (r : Record) : r.conversions.Perm r.attempts :=
  r.conversions_perm

theorem counts_conversions (r : Record) : (Tally.ofAttempts r.conversions).Counts r.attempts :=
  (Tally.counts_ofAttempts _).perm r.conversions_perm_attempts

theorem counts_conversionsFor (r : Record) (language : Text) :
    (Tally.ofAttempts (r.conversions.filter fun a => a.language = language)).Counts
      (r.attemptsFor language) :=
  (Tally.counts_ofAttempts _).perm (r.conversions_perm_attempts.filter _)

theorem languageStatistics_eq (r : Record) (limit : Option Int) :
    r.languageStatistics limit =
      (Text.distinct (r.conversions.map Attempt.language)).map fun language =>
        (language, .ofTally limit
          (Tally.ofAttempts (r.conversions.filter fun a => a.language = language))) := by
  rw [languageStatistics, LanguageTallies.ofAttempts, Buckets.sorted_collect, List.map_map]
  rfl

theorem languages_eq (r : Record) (limit : Option Int) :
    (r.languageStatistics limit).map Prod.fst =
      Text.distinct (r.conversions.map Attempt.language) := by
  rw [languageStatistics_eq, List.map_map]
  exact List.map_id _

theorem mem_languages (r : Record) (limit : Option Int) (language : Text) :
    language ∈ (r.languageStatistics limit).map Prod.fst ↔
      ∃ a ∈ r.attempts, a.language = language := by
  rw [languages_eq, Text.mem_distinct, List.mem_map]
  constructor
  · rintro ⟨a, ha, rfl⟩
    exact ⟨a, r.conversions_perm_attempts.mem_iff.mp ha, rfl⟩
  · rintro ⟨a, ha, rfl⟩
    exact ⟨a, r.conversions_perm_attempts.mem_iff.mpr ha, rfl⟩

private theorem describes_language (r : Record) (language : Text) :
    (LanguageStatistic.ofTally none
      (Tally.ofAttempts (r.conversions.filter fun a => a.language = language))).Describes
        (r.attemptsFor language) :=
  LanguageStatistic.describes_ofTally _ _ (r.counts_conversionsFor language)

theorem describes_of_mem (r : Record) (language : Text) (s : LanguageStatistic)
    (h : (language, s) ∈ r.languageStatistics none) : s.Describes (r.attemptsFor language) := by
  rw [languageStatistics_eq] at h
  obtain ⟨l, -, hl⟩ := List.mem_map.mp h
  obtain ⟨rfl, rfl⟩ := Prod.mk.inj hl
  exact r.describes_language l

theorem elim_lookup {α : Type} (r : Record) (language : Text) (z : α)
    (g : LanguageStatistic → α) (f : List Attempt → α)
    (hg : ∀ s xs, LanguageStatistic.Describes s xs → g s = f xs) (hz : f [] = z) :
    ((r.languageStatistics none).lookup language).elim z g = f (r.attemptsFor language) := by
  cases hl : (r.languageStatistics none).lookup language with
  | some s =>
    obtain ⟨before, after, heq, -⟩ := List.lookup_eq_some_iff.mp hl
    exact hg s _ (r.describes_of_mem language s (by simp [heq]))
  | none =>
    have hnone : r.attemptsFor language = [] := by
      rw [attemptsFor, List.filter_eq_nil_iff]
      intro a ha he
      obtain ⟨p, hp, hfst⟩ := List.mem_map.mp
        ((r.mem_languages none language).mpr ⟨a, ha, of_decide_eq_true he⟩)
      have hne := List.lookup_eq_none_iff.mp hl p hp
      simp [hfst] at hne
    rw [hnone, hz]
    rfl

/-- Counts that are read off the statistics of all languages add up to the count of all attempts. -/
theorem sum_languageStatistics {M : Type} [AddCommMonoidWithOne M] (r : Record)
    (g : LanguageStatistic → M) (p : Attempt → Bool)
    (hg : ∀ s xs, LanguageStatistic.Describes s xs → g s = (xs.countP p : M)) :
    ((r.languageStatistics none).map fun (_, s) => g s).sum = (r.attempts.countP p : M) := by
  have hlanguage : ∀ language, g (.ofTally none
      (Tally.ofAttempts (r.conversions.filter fun a => a.language = language))) =
        ((r.conversions.filter fun a => a.language = language).countP p : M) := by
    intro language
    exact hg _ _ (LanguageStatistic.describes_ofTally _ _ (Tally.counts_ofAttempts _))
  rw [← r.conversions_perm_attempts.countP_eq, ← Buckets.sum_countP Attempt.language p,
    Nat.cast_list_sum, languageStatistics_eq, List.map_map, List.map_map]
  simp only [Function.comp_def, hlanguage]

/-- The languages of the report are those that occur in the record, in strictly increasing order,
and what it says of each of them is right about all attempts for it. -/
theorem languageStatistics_exact (r : Record) :
    let stats := r.languageStatistics none
    (stats.map Prod.fst).Pairwise (· < ·) ∧
      (∀ language, language ∈ stats.map Prod.fst ↔
        ∃ e ∈ r.examples, ∃ a ∈ e.attempts, a.language = language) ∧
      ∀ language s, (language, s) ∈ stats →
        s.Describes ((r.examples.flatMap Example.attempts).filter fun a =>
          a.language = language) := by
  refine ⟨?_, ?_, ?_⟩
  · rw [languages_eq]
    exact Text.pairwise_distinct _
  · intro language
    rw [mem_languages]
    constructor
    · rintro ⟨a, ha, rfl⟩
      obtain ⟨e, he, hae⟩ := List.mem_flatMap.mp ha
      exact ⟨e, he, a, hae, rfl⟩
    · rintro ⟨e, he, a, ha, rfl⟩
      exact ⟨a, List.mem_flatMap.mpr ⟨e, he, ha⟩, rfl⟩
  · exact r.describes_of_mem

/-- Two examples out of order that have a language and a reason in common. -/
def mixed : Record where
  provider := "provider"
  version := []
  examples := [
    ⟨"b", [], [⟨"go", .warning, "x", false⟩, ⟨"c", .success, "x", false⟩,
      ⟨"go", .fatal, "y", true⟩]⟩,
    ⟨"a", [], [⟨"go", .failure, "x", false⟩, ⟨"go", .success, "x", false⟩]⟩]
  names_nodup := by decide

theorem languageStatistics_exact_mixed :
    ∃ s : LanguageStatistic, (("go" : Text), s) ∈ mixed.languageStatistics none ∧ s.total = 4 ∧
      s.shares.failures.number = 1 ∧ ⟨"x", 2⟩ ∈ s.frequentErrors := by
  obtain ⟨-, hlanguages, hstats⟩ := languageStatistics_exact mixed
  have hgo : ("go" : Text) ∈ (mixed.languageStatistics none).map Prod.fst :=
    (hlanguages "go").mpr ⟨_, List.mem_cons_self, _, List.mem_cons_self, rfl⟩
  obtain ⟨⟨_, s⟩, hs, rfl⟩ := List.mem_map.mp hgo
  have hd := hstats _ s hs
  refine ⟨s, hs, hd.total.trans (by decide), (hd.number .failure).trans (by decide), ?_⟩
  exact (hd.errors.mem_iff "x" 2).mpr ⟨by decide, by decide⟩

end Record

end ConversionCoverage
