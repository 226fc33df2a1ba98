import ConversionCoverage.Buckets
import ConversionCoverage.Tally

/-!
# The report on languages

One pass over the attempts of a record keeps a tally for each language that has come up. The report
lists the languages in increasing order.
-/

namespace ConversionCoverage

structure LanguageStatistic where
  total : Nat
  shares : Shares
  frequentErrors : List ErrorCount
  deriving DecidableEq, Repr

namespace LanguageStatistic

/-- The statistic of a tally, with as many reasons as the limit lets through. -/
def ofTally (limit : Option Int) (t : Tally) : LanguageStatistic :=
  ⟨t.total, t.shares, t.errors.frequent limit⟩

def toJson (s : LanguageStatistic) : Json :=
  .object ([Json.member "Total" (.int s.total)] ++ s.shares.members ++
    [Json.member "FrequentErrors" (.array (s.frequentErrors.map ErrorCount.toJson))])

end LanguageStatistic

abbrev LanguageTallies := Buckets Tally

/-- The tallies of a list of attempts, each attempt being counted for its language. -/
def LanguageTallies.ofAttempts (attempts : List Attempt) : LanguageTallies :=
  Buckets.collect Attempt.language Tally.empty Tally.add attempts

namespace Record

def languageStatistics (r : Record) (limit : Option Int) : List (Text × LanguageStatistic) :=
  (LanguageTallies.ofAttempts r.conversions).sorted.map fun (language, t) =>
    (language, .ofTally limit t)

def languageReport (r : Record) (limit : Option Int) : Json :=
  .object ((r.languageStatistics limit).map fun (language, s) => (language, s.toJson))

end Record

end ConversionCoverage
