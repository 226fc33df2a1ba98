import ConversionCoverage.Export
import ConversionCoverage.Record.Schema

/-!
# Trackers

Collecting attempts while examples are converted. An example is known by its name and keeps one
attempt for each language, the latest. Names and sources are taken as they come and are checked
when a record is built.
-/

namespace ConversionCoverage

structure TrackedExample where
  name : Json
  source : Json
  attempts : List Attempt

namespace TrackedExample

def hasName (name : Json) (e : TrackedExample) : Bool :=
  Datum.sameKey (.ofJson e.name) (.ofJson name)

/-- The attempts after one is set: an attempt for a language that has one takes its place. -/
def setAttempt (a : Attempt) : List Attempt → List Attempt
  | [] => [a]
  | b :: rest => if b.language = a.language then a :: rest else b :: setAttempt a rest

def toExample (e : TrackedExample) : Checked Example :=
  let entries : List (Datum × Datum) :=
    [(.text "name", .ofJson e.name), (.text "original_source", .ofJson e.source)]
  (Example.nameField.required Datum.asText entries).both
    (Example.sourceField.required Datum.asText entries) |>.map
    fun (name, source) => ⟨name, source, e.attempts⟩

end TrackedExample

structure Tracker where
  provider : Json
  version : Json
  examples : List TrackedExample

namespace Tracker

inductive Fault where
  /-- A name of a kind that cannot be looked up. -/
  | unusableName (kind : Text)
  | unknownExample (shown : Text)
  /-- A name that cannot be written in a message. -/
  | unwritable (fault : WritingFault)
  | invalid (invalid : Invalid)
  | interrupted (cause : Interruption)
  deriving DecidableEq, Repr

/-- The wording of a fault; of many issues only their number is told. -/
def Fault.message : Fault → Text
  | .unusableName kind => "unhashable type: '" ++ kind ++ "'"
  | .unknownExample shown => Text.quoted ("Unknown example: " ++ shown)
  | .unwritable fault => fault.message
  | .invalid found => found.headline
  | .interrupted cause => cause.message

def Fault.ofIssues (issues : List Issue) : Fault :=
  match Issue.interruption? issues with
  | none => .invalid ⟨.attempt, issues⟩
  | some cause => .interrupted cause

variable [Host]

def new (provider version : Json) : Tracker := ⟨provider, version, []⟩

def count (t : Tracker) : Nat := t.examples.length

/-- Checks that a name can be looked up. -/
def checkName (name : Json) : Except Fault Unit :=
  let d := Datum.ofJson name
  if d.isKey then .ok () else .error (.unusableName d.kind)

/-- The examples after one is found: a known one gets the new source. -/
def setSource (name source : Json) : List TrackedExample → List TrackedExample
  | [] => [⟨name, source, []⟩]
  | e :: rest =>
    if e.hasName name then { e with source := source } :: rest
    else e :: setSource name source rest

def found (t : Tracker) (name source : Json) : Except Fault Tracker := do
  checkName name
  return { t with examples := setSource name source t.examples }

def checkAttempt (language severity detail multiple : Json) : Except Fault Attempt :=
  let entries : List (Datum × Datum) := [
    (.text "target_language", .ofJson language), (.text "severity", .ofJson severity),
    (.text "error_detail", .ofJson detail), (.text "multiple_translations", .ofJson multiple)]
  (Attempt.ofEntries entries).mapError .ofIssues

def unknown (name : Json) : Fault :=
  match (Datum.ofJson name).toText (Host.room .showing) with
  | .ok shown => .unknownExample shown
  | .error fault => .unwritable fault

/-- Sets an attempt of the example with the given name. -/
def setAttempt (name : Json) (a : Attempt) (examples : List TrackedExample) :
    List TrackedExample :=
  examples.map fun e =>
    if e.hasName name then { e with attempts := TrackedExample.setAttempt a e.attempts } else e

def record (t : Tracker) (name language severity detail multiple : Json) :
    Except Fault (Attempt × Tracker) := do
  checkName name
  if !t.examples.any (·.hasName name) then throw (unknown name)
  let a ← checkAttempt language severity detail multiple
  return (a, { t with examples := setAttempt name a t.examples })

/-- The examples for a record; the first one that is not valid ends the building of it. -/
def checkExamples : List TrackedExample → Except Invalid (List Example)
  | [] => .ok []
  | e :: rest => do
    let checked ← e.toExample.mapError fun issues => (⟨.example, issues⟩ : Invalid)
    return checked :: (← checkExamples rest)

def build (t : Tracker) : Except Invalid Record := do
  let examples ← checkExamples t.examples
  let entries : List (Datum × Datum) :=
    [(.text "provider_name", .ofJson t.provider), (.text "provider_version", .ofJson t.version)]
  let (provider, version) ←
    ((Record.providerField.required Datum.asText entries).both
      (Record.versionField.required Datum.asText entries)).mapError
      fun issues => (⟨.record, issues⟩ : Invalid)
  (Record.ofParts provider version examples).mapError
    fun issues => (⟨.record, issues⟩ : Invalid)

def reset (t : Tracker) : Tracker := { t with examples := [] }

def exportEvent (t : Tracker) : Event :=
  ⟨.info, "exporting coverage",
    [Json.member "provider" t.provider, Json.member "examples" t.count]⟩

inductive ExportFault where
  | invalid (invalid : Invalid)
  | failed (fault : ConversionCoverage.ExportFault)

def exportRecord (t : Tracker) (s : Settings) (asked : Option Text) (w : Workspace) :
    Except ExportFault (List FilePath) × Workspace :=
  let started : Workspace := { w with log := w.log ++ [t.exportEvent] }
  match t.build with
  | .error found => (.error (.invalid found), started)
  | .ok r =>
    let (result, done) := (Export.all r s (Export.directory s asked)).run.run started
    (result.mapError .failed, done)

end Tracker

end ConversionCoverage
