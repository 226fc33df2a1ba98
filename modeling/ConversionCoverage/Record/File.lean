import ConversionCoverage.FileTree
import ConversionCoverage.Json.Reader
import ConversionCoverage.Record.Schema
import ConversionCoverage.Yaml.Value

/-!
# Record files

Records are kept in JSON and YAML files, told apart by the suffix of the name. A file is read
before its suffix is looked at.
-/

namespace ConversionCoverage

inductive RecordFormat where
  | json
  | yaml
  deriving DecidableEq, Repr

/-- The format that goes with a suffix, in any case. -/
def RecordFormat.ofSuffix? (suffix : Text) : Option RecordFormat :=
  let small := suffix.toSmall
  if small = ".json" then some .json
  else if small = ".yaml" ∨ small = ".yml" then some .yaml
  else none

namespace Record

inductive LoadFault where
  | notFound (path : Text)
  | file (fault : FileFault)
  | encoding (fault : Utf8.DecodingFault)
  | unsupported (suffix : Text)
  | json (fault : Json.Fault)
  | yaml (fault : Yaml.Fault)
  | schema (fault : SchemaFault)
  deriving DecidableEq, Repr

/-- The wording of a fault; of many issues only their number is told. -/
def SchemaFault.message : SchemaFault → Text
  | .notMapping kind => "Coverage record must be a mapping, got " ++ kind
  | .invalid found => found.headline
  | .interrupted cause => cause.message

def LoadFault.message : LoadFault → Text
  | .notFound path => "Coverage record not found: " ++ path
  | .file fault => fault.message
  | .encoding fault => fault.message
  | .unsupported suffix =>
    let shown : Text := if suffix = [] then "<none>" else suffix
    "Unsupported record format: " ++ shown ++ ". Supported: .json, .yaml, .yml"
  | .json fault => fault.message
  | .yaml fault => fault.message
  | .schema fault => fault.message

def LoadFault.isMissing : LoadFault → Bool
  | .notFound _ => true
  | _ => false

/-- Whether the fault lies in what the data say, rather than in the depth of their nesting. -/
def SchemaFault.concernsValue : SchemaFault → Bool
  | .notMapping _ | .invalid _ => true
  | .interrupted cause => cause.concernsValue

/-- Whether the fault lies in a value that the file holds, or in the choice of the file. -/
def LoadFault.isInvalid : LoadFault → Bool
  | .notFound _ | .file _ => false
  | .encoding _ | .unsupported _ => true
  | .json fault => fault.concernsValue
  | .yaml fault => fault.concernsValue
  | .schema fault => fault.concernsValue

variable [Host]

def readData (format : RecordFormat) (t : Text) : Except LoadFault Datum :=
  match format with
  | .json => (Json.read t).mapError .json |>.map Datum.ofJson
  | .yaml => (Yaml.read t).mapError .yaml

def load (tree : FileTree) (path : FilePath) : Except LoadFault Record := do
  let found ← (tree.lookUp path).mapError .file
  if found.isNone then throw (.notFound path.toText)
  let bytes ← (tree.openFile path).mapError .file
  let t ← (Utf8.decode bytes).mapError .encoding
  match RecordFormat.ofSuffix? path.suffix with
  | none => throw (.unsupported path.suffix)
  | some format =>
    let d ← readData format t.normalizeBreaks
    (ofDatum d).mapError .schema

end Record

end ConversionCoverage
