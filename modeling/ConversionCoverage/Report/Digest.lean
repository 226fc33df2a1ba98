import ConversionCoverage.Binary64.Decimal
import ConversionCoverage.Buckets
import ConversionCoverage.Percentage
import ConversionCoverage.Record

/-!
# The digest

A few lines of text on the rates of success: of all attempts, and of those for each language. The
digest counts on its own, in one pass over the attempts.
-/

namespace ConversionCoverage

namespace Digest

/-- How many attempts there were, and how many of them succeeded. -/
structure Counter where
  successes : Nat
  total : Nat
  deriving DecidableEq, Repr

namespace Counter

def zero : Counter := ⟨0, 0⟩

def add (c : Counter) (a : Attempt) : Counter :=
  ⟨if a.succeeded then c.successes + 1 else c.successes, c.total + 1⟩

/-- The rate of success as a percentage with two decimal places. -/
def rateText (c : Counter) : Text := (Percentage.rate c.successes c.total).toFixed 2 ++ "%"

/-- The two numbers that the rate is the ratio of. -/
def ratioText (c : Counter) : Text :=
  "(" ++ Text.ofNat c.successes ++ "/" ++ Text.ofNat c.total ++ ")"

end Counter

/-- A counter of all attempts, and one for each language that has come up. -/
structure Counters where
  overall : Counter
  languages : Buckets Counter

namespace Counters

def add (c : Counters) (a : Attempt) : Counters :=
  ⟨c.overall.add a, Buckets.add Attempt.language .zero Counter.add c.languages a⟩

def ofAttempts (attempts : List Attempt) : Counters := attempts.foldl add ⟨.zero, []⟩

end Counters

def overallLine (c : Counter) : Text := "Success rate: " ++ c.rateText ++ " " ++ c.ratioText

def languageLine (language : Text) (c : Counter) : Text :=
  "Converted " ++ c.rateText ++ " of " ++ language ++ " examples " ++ c.ratioText

end Digest

def Record.digest (r : Record) : Text :=
  let counters := Digest.Counters.ofAttempts r.conversions
  let lines : List Text :=
    ["Provider:     " ++ r.provider, Digest.overallLine counters.overall, []] ++
      counters.languages.sorted.map fun (language, c) => Digest.languageLine language c
  Text.join "\n" lines ++ "\n"

end ConversionCoverage
