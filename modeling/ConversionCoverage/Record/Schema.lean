import ConversionCoverage.Record
import ConversionCoverage.Schema

/-!
# The schema of records

Reading a record from plain data. All issues of a document are found in one pass over it; names
that occur twice are looked for in a document without any other issue. Where there is an
interruption among the issues, it is reported instead of them.
-/

namespace ConversionCoverage

variable [Host]

namespace Attempt

def languageField : Field := ⟨"TargetLanguage", "target_language"⟩

def severityField : Field := ⟨"FailureSeverity", "severity"⟩

def detailField : Field := ⟨"FailureInfo", "error_detail"⟩

def multipleField : Field := ⟨"MultipleTranslations", "multiple_translations"⟩

/-- What a check finds where a severity is wrong. -/
def severityProblem (fault : Severity.Fault) : Problem :=
  match fault.message with
  | .ok message => .fault message
  | .error cause => .interruption cause

def checkSeverity (d : Datum) : Checked Severity :=
  match Severity.ofDatum d with
  | .ok s => .ok s
  | .error fault => .problem (severityProblem fault)

def ofEntries (entries : List (Datum × Datum)) : Checked Attempt :=
  (languageField.required Datum.asText entries).both
    ((severityField.optional .success checkSeverity entries).both
      ((detailField.optional [] Datum.asText entries).both
        (multipleField.optional false Datum.asBool entries))) |>.map
    fun (language, severity, detail, multiple) => ⟨language, severity, detail, multiple⟩

def ofDatum (d : Datum) : Checked Attempt :=
  match d.asMapping .attempt with
  | .ok entries => ofEntries entries
  | .error issues => .error issues

end Attempt

namespace Example

def nameField : Field := ⟨"Name", "name"⟩

def sourceField : Field := ⟨"OriginalSource", "original_source"⟩

def attemptsField : Field := ⟨"ConversionAttempts", "conversion_attempts"⟩

def ofEntries (entries : List (Datum × Datum)) : Checked Example :=
  (nameField.required Datum.asText entries).both
    ((sourceField.optional [] Datum.asText entries).both
      (attemptsField.optional [] (Checked.listOf Attempt.ofDatum) entries)) |>.map
    fun (name, source, attempts) => ⟨name, source, attempts⟩

def ofDatum (d : Datum) : Checked Example :=
  match d.asMapping .example with
  | .ok entries => ofEntries entries
  | .error issues => .error issues

end Example

namespace Record

def providerField : Field := ⟨"ProviderName", "provider_name"⟩

def versionField : Field := ⟨"ProviderVersion", "provider_version"⟩

def examplesField : Field := ⟨"Examples", "examples"⟩

/-- The names that occur more than once, each of them once and in increasing order. -/
def repeatedNames (names : List Text) : List Text :=
  Text.distinct (names.filter fun name => 1 < names.count name)

def repeatedNamesMessage (names : List Text) : Text :=
  "Duplicate example names: " ++ Text.join ", " (repeatedNames names)

/-- What a check finds where names occur more than once. -/
def repeatedNamesProblem (names : List Text) : Problem :=
  match Utf8.encode (repeatedNamesMessage names) with
  | .ok _ => .fault (repeatedNamesMessage names)
  | .error fault => .interruption (.unencodable fault)

def ofParts (provider version : Text) (examples : List Example) : Checked Record :=
  if h : (examples.map Example.name).Nodup then .ok ⟨provider, version, examples, h⟩
  else .problem (repeatedNamesProblem (examples.map Example.name))

def ofEntries (entries : List (Datum × Datum)) : Checked Record :=
  (providerField.required Datum.asText entries).both
    ((versionField.optional [] Datum.asText entries).both
      (examplesField.optional [] (Checked.listOf Example.ofDatum) entries)) |>.bind
    fun (provider, version, examples) => ofParts provider version examples

inductive SchemaFault where
  | notMapping (kind : Text)
  | invalid (invalid : Invalid)
  | interrupted (cause : Interruption)
  deriving DecidableEq, Repr

def SchemaFault.ofIssues (issues : List Issue) : SchemaFault :=
  match Issue.interruption? issues with
  | none => .invalid ⟨.record, issues⟩
  | some cause => .interrupted cause

def ofDatum : Datum → Except SchemaFault Record
  | .mapping entries => (ofEntries entries).mapError .ofIssues
  | d => .error (.notMapping d.kind)

end Record

end ConversionCoverage
