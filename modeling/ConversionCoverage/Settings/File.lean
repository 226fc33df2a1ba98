import ConversionCoverage.FileTree
import ConversionCoverage.Settings
import ConversionCoverage.Yaml.Value

/-!
# Settings files

Settings are kept in YAML files. A document that holds nothing stands for the standard settings.
-/

namespace ConversionCoverage.Settings

inductive LoadFault where
  | notFound (path : Text)
  | file (fault : FileFault)
  | encoding (fault : Utf8.DecodingFault)
  | yaml (fault : Yaml.Fault)
  | settings (fault : Fault)
  deriving DecidableEq, Repr

def LoadFault.message : LoadFault → Text
  | .notFound path => "Configuration file not found: " ++ path
  | .file fault => fault.message
  | .encoding fault => fault.message
  | .yaml fault => fault.message
  | .settings fault => fault.message

/-- Whether there was nothing to load, or a value of a fitting kind does not do. -/
def LoadFault.isReported : LoadFault → Bool
  | .notFound _ | .encoding _ => true
  | .file _ => false
  | .yaml fault => fault.concernsValue
  | .settings fault => fault.concernsValue

/-- The number of bytes that are read from a file at a time. -/
def pieceSize : Nat := 8192

variable [Host]

def ofDocument (d : Datum) : Except Fault Settings :=
  lenient (if d.isPresent then d else .mapping [])

def load (tree : FileTree) (path : FilePath) : Except LoadFault Settings := do
  let found ← (tree.lookUp path).mapError .file
  if found.isNone then throw (.notFound path.toText)
  let bytes ← (tree.openFile path).mapError .file
  let t ← (Utf8.decodeStream pieceSize bytes).mapError .encoding
  let d ← (Yaml.read t).mapError .yaml
  (ofDocument d).mapError .settings

def sample : Text :=
  "output_dir: ./coverage-reports\nindent: \"\\t\"\ndir_mode: '0700'\nfile_mode: '0600'\n" ++
    "top_errors: 10\n"

end ConversionCoverage.Settings
