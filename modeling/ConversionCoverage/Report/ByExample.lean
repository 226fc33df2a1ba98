import ConversionCoverage.Json
import ConversionCoverage.Record

/-!
# The report on examples

One entry for each example, in the order of the names. Source and attempts are shown only of an
example of which some attempt did not succeed.
-/

namespace ConversionCoverage

structure ExampleReport where
  provider : Text
  version : Text
  name : Text
  isDuplicated : Bool
  source : Text
  failed : List Attempt
  deriving DecidableEq, Repr

namespace ExampleReport

def ofExample (r : Record) (e : Example) : ExampleReport where
  provider := r.provider
  version := r.version
  name := e.name
  isDuplicated := e.isDuplicated
  source := if e.hasFailures then e.source else []
  failed := e.failedAttempts

/-- The members of an entry; an empty source and an empty list are left out. -/
def members (report : ExampleReport) : List (Text × Json) :=
  [Json.member "ProviderName" (.text report.provider),
    Json.member "ProviderVersion" (.text report.version),
    Json.member "ExampleName" (.text report.name)] ++
    (if report.source = [] then [] else [Json.member "OriginalSource" (.text report.source)]) ++
    [Json.member "IsDuplicated" (.bool report.isDuplicated)] ++
    (if report.failed = [] then []
      else [Json.member "FailedLanguages" (.array (report.failed.map Attempt.toJson))])

def toJson (report : ExampleReport) : Json := .object report.members

end ExampleReport

def Record.exampleReports (r : Record) : List ExampleReport :=
  r.sortedExamples.map (.ofExample r)

end ConversionCoverage
