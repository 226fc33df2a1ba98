import ConversionCoverage.Host
import ConversionCoverage.Schema

/-!
# Export settings

Where reports go, how they are indented, which permission bits they get and how many reasons they
list. Settings come from a mapping in either of two ways. A schema takes each field as it is. A
lenient reading writes any directory as text, takes a number of blanks for an indentation, and
takes numerals of permission bits as octal, before the schema has its say.
-/

namespace ConversionCoverage

abbrev Mode := Fin 512

/-- A number of reasons that is listed at most. -/
abbrev Cap := { k : Nat // 0 < k }

structure Settings where
  outputDir : Text
  indent : Text
  dirMode : Mode
  fileMode : Mode
  topErrors : Option Cap
  deriving DecidableEq, Repr

namespace Settings

def standard : Settings where
  outputDir := "./coverage-reports"
  indent := "\t"
  dirMode := 0o700
  fileMode := 0o600
  topErrors := none

instance : Inhabited Settings := ⟨standard⟩

/-- How many reasons a report lists. -/
def limit (s : Settings) : Option Int := s.topErrors.map fun (cap : Cap) => (cap.val : Int)

def outputDirField : Field := ⟨"output_dir", "output_dir"⟩

def indentField : Field := ⟨"indent", "indent"⟩

def dirModeField : Field := ⟨"dir_mode", "dir_mode"⟩

def fileModeField : Field := ⟨"file_mode", "file_mode"⟩

def topErrorsField : Field := ⟨"top_errors", "top_errors"⟩

def checkMode (d : Datum) : Checked Mode :=
  match d.asInt with
  | .error issues => .error issues
  | .ok n =>
    if n < 0 then .problem (.below 0)
    else if h : n.toNat < 512 then .ok ⟨n.toNat, h⟩
    else .problem (.above 511)

/-- The number of reasons that a datum stands for; without one all are listed. -/
def checkCap : Datum → Checked (Option Cap)
  | .null => .ok none
  | d =>
    match d.asInt with
    | .error issues => .error issues
    | .ok n => if h : 0 < n.toNat then .ok (some ⟨n.toNat, h⟩) else .problem (.below 1)

def ofEntries (entries : List (Datum × Datum)) : Checked Settings :=
  (outputDirField.optional standard.outputDir Datum.asText entries).both
    ((indentField.optional standard.indent Datum.asText entries).both
      ((dirModeField.optional standard.dirMode checkMode entries).both
        ((fileModeField.optional standard.fileMode checkMode entries).both
          (topErrorsField.optional standard.topErrors checkCap entries)))) |>.map
    fun (outputDir, indent, dirMode, fileMode, topErrors) =>
      ⟨outputDir, indent, dirMode, fileMode, topErrors⟩

def ofDatum (d : Datum) : Checked Settings :=
  match d.asMapping .settings with
  | .ok entries => ofEntries entries
  | .error issues => .error issues

/-- Why the lenient reading of settings fails. -/
inductive Fault where
  | notMapping (kind : Text)
  /-- A value that cannot be written as text. -/
  | unwritable (fault : WritingFault)
  /-- More blanks than a text can have. -/
  | tooManyBlanks
  /-- More blanks than there is memory for. -/
  | noMemory
  | modeNumeral (fault : Numeral.Fault)
  | infiniteMode
  | nanMode
  /-- Permission bits of a kind that stands for no number. -/
  | modeKind (kind : Text)
  | invalid (invalid : Invalid)
  deriving DecidableEq, Repr

/-- The wording of a fault; of many issues only their number is told. -/
def Fault.message : Fault → Text
  | .notMapping kind => "Export configuration must be a mapping, got " ++ kind
  | .unwritable fault => fault.message
  | .tooManyBlanks => "cannot fit 'int' into an index-sized integer"
  | .noMemory => []
  | .modeNumeral fault => fault.message
  | .infiniteMode => "cannot convert float infinity to integer"
  | .nanMode => "cannot convert float NaN to integer"
  | .modeKind kind =>
    "int() argument must be a string, a bytes-like object or a real number, not '" ++ kind ++ "'"
  | .invalid found => found.headline

/-- Whether the fault is that a value of a fitting kind does not do. -/
def Fault.concernsValue : Fault → Bool
  | .notMapping _ | .unwritable (.numeral _) | .modeNumeral _ | .nanMode | .invalid _ => true
  | .unwritable .tooDeep | .tooManyBlanks | .noMemory | .infiniteMode | .modeKind _ => false

variable [Host]

def writtenText (d : Datum) : Except Fault Text :=
  (d.toText (Host.room .showing)).mapError .unwritable

/-- As many blanks as a number says; a negative number gives none. -/
def blanks (n : Int) : Except Fault Text :=
  if ¬ (-0x8000000000000000 ≤ n ∧ n < 0x8000000000000000) then .error .tooManyBlanks
  else if Host.memory < n.toNat then .error .noMemory
  else .ok (Text.spaces n.toNat)

/-- The indentation that a datum stands for. -/
def lenientIndent : Datum → Except Fault Text
  | .int n => blanks n
  | .bool b => .ok (Text.spaces (if b then 1 else 0))
  | d => writtenText d

/-- The word for a kind of data that stands for no number. -/
def fullKind : Datum → Text
  | .date _ => "datetime.date"
  | .dateTime _ => "datetime.datetime"
  | d => d.kind

/-- The permission bits that a datum stands for, before their range is looked at. -/
def lenientMode : Datum → Except Fault Int
  | .int n => .ok n
  | .bool b => .ok (if b then 1 else 0)
  | .text t => (Numeral.read 8 t).mapError .modeNumeral
  | .bytes bs => (Numeral.readBytes bs).mapError .modeNumeral
  | .float x =>
    match x.truncate? with
    | some n => .ok n
    | none => .error (if x = .nan then .nanMode else .infiniteMode)
  | d => .error (.modeKind (fullKind d))

/-- A value read leniently, if there is one. -/
def lenientField {α : Type} (name : Text) (reader : Datum → Except Fault α) (wrap : α → Datum)
    (entries : List (Datum × Datum)) : Except Fault (List (Datum × Datum)) :=
  match Datum.field? name entries with
  | none => .ok []
  | some d => do return [(.text name, wrap (← reader d))]

/-- The entries of a mapping, read leniently. -/
def lenientEntries (entries : List (Datum × Datum)) :
    Except Fault (List (Datum × Datum)) := do
  let outputDir ← lenientField "output_dir" writtenText .text entries
  let indent ← lenientField "indent" lenientIndent .text entries
  let dirMode ← lenientField "dir_mode" lenientMode .int entries
  let fileMode ← lenientField "file_mode" lenientMode .int entries
  let topErrors ← lenientField "top_errors" .ok id entries
  return outputDir ++ indent ++ dirMode ++ fileMode ++ topErrors

def lenient : Datum → Except Fault Settings
  | .mapping entries => do
    (ofEntries (← lenientEntries entries)).mapError fun issues => .invalid ⟨.settings, issues⟩
  | d => .error (.notMapping d.kind)

end Settings

end ConversionCoverage
