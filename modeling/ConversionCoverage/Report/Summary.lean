import ConversionCoverage.Tally

/-!
# The summary of a provider

All attempts of a record in one tally.
-/

namespace ConversionCoverage

structure ProviderStatistic where
  name : Text
  version : Text
  examples : Nat
  totalConversions : Nat
  shares : Shares
  conversionErrors : List ErrorCount
  deriving DecidableEq, Repr

namespace ProviderStatistic

def toJson (s : ProviderStatistic) : Json :=
  .object ([
    Json.member "Name" (.text s.name),
    Json.member "Version" (.text s.version),
    Json.member "Examples" (.int s.examples),
    Json.member "TotalConversions" (.int s.totalConversions)] ++ s.shares.members ++
    [Json.member "ConversionErrors" (.array (s.conversionErrors.map ErrorCount.toJson))])

end ProviderStatistic

/-- The summary of a record, with as many reasons as the limit lets through. -/
def Record.providerStatistic (r : Record) (limit : Option Int) : ProviderStatistic :=
  let t := Tally.ofAttempts r.conversions
  ⟨r.provider, r.version, r.examples.length, t.total, t.shares, t.errors.frequent limit⟩

end ConversionCoverage
