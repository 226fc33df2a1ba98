import ConversionCoverage.EventLog
import ConversionCoverage.FileTree
import ConversionCoverage.Report.ByExample
import ConversionCoverage.Report.ByLanguage
import ConversionCoverage.Report.Digest
import ConversionCoverage.Report.Summary
import ConversionCoverage.Settings

/-!
# Exports

Writing the four reports on a record into a directory. The directory is made before each report,
and a report is encoded before its file is opened, so that a report that cannot be encoded leaves
an older file as it was. The first report that fails ends the export. Each report written is
logged, and so is the failure.
-/

namespace ConversionCoverage

/-- The reports on a record, in the order in which they are written. -/
inductive Report where
  | byExample
  | byLanguage
  | summary
  | digest
  deriving DecidableEq, Repr

namespace Report

def all : List Report := [.byExample, .byLanguage, .summary, .digest]

def fileName : Report → Text
  | .byExample => "byExample.json"
  | .byLanguage => "byLanguage.json"
  | .summary => "summary.json"
  | .digest => "shortSummary.txt"

def content (r : Record) (s : Settings) : Report → Text
  | .byExample => r.exampleReports.flatMap fun report => report.toJson.toText .line ++ "\n"
  | .byLanguage => (r.languageReport s.limit).toText (.indented s.indent)
  | .summary => (r.providerStatistic s.limit).toJson.toText (.indented s.indent)
  | .digest => r.digest

end Report

inductive ExportStep where
  | directory
  | serialization
  | writing
  deriving DecidableEq, Repr

namespace ExportStep

/-- The complaint about a step, with a reason unless it is empty. -/
def complaint (step : ExportStep) (path reason : Text) : Text :=
  let what : Text := match step with
    | .directory => "Cannot create output directory "
    | .serialization => "Cannot serialize report for "
    | .writing => "Cannot write report "
  let detail : Text := if reason = [] then [] else ": " ++ reason
  what ++ path ++ detail

end ExportStep

inductive ExportCause where
  | file (fault : FileFault)
  | encoding (fault : Utf8.EncodingFault)
  deriving DecidableEq, Repr

def ExportCause.message : ExportCause → Text
  | .file fault => fault.message
  | .encoding fault => fault.message

inductive ExportFault where
  | failed (step : ExportStep) (path : FilePath) (cause : ExportCause)
  /-- A path that no file system takes, or one on which too many directories are missing. -/
  | unusablePath (fault : FileFault)
  deriving DecidableEq, Repr

def ExportFault.message : ExportFault → Text
  | .failed step path cause => step.complaint path.toText cause.message
  | .unusablePath fault => fault.message

/-- A file tree and what has been logged. -/
structure Workspace where
  tree : FileTree
  log : List Event

abbrev Export (α : Type) := ExceptT ExportFault (StateM Workspace) α

namespace Export

variable [Host]

def note (e : Event) : Export Unit := modify fun w => { w with log := w.log ++ [e] }

def failureMessage (step : ExportStep) (cause : ExportCause) : Text :=
  match step, cause with
  | .directory, _ => "output directory unavailable"
  | .serialization, .encoding _ => "report encoding failed"
  | .serialization, .file _ => "report serialization failed"
  | .writing, _ => "report write failed"

def failureEvent (step : ExportStep) (path : FilePath) (cause : ExportCause) : Event :=
  ⟨.error, failureMessage step cause,
    [Json.member "path" (.text path.toText), Json.member "error" (.text cause.message)]⟩

def successEvent (path : FilePath) (bytes : List UInt8) : Event :=
  ⟨.info, "report written",
    [Json.member "path" (.text path.toText), Json.member "size" bytes.length]⟩

def fail {α : Type} (step : ExportStep) (path : FilePath) (cause : ExportCause) : Export α := do
  note (failureEvent step path cause)
  throw (.failed step path cause)

def failFile {α : Type} (step : ExportStep) (path : FilePath) : FileFault → Export α
  | .refused refusal written => fail step path (.file (.refused refusal written))
  | fault => throw (.unusablePath fault)

def prepare (s : Settings) (directory : FilePath) : Export Unit := do
  let w ← get
  let (result, tree) := w.tree.ensureDir s.dirMode directory
  set { w with tree := tree }
  match result with
  | .ok () => return
  | .error fault => failFile .directory directory fault

def write (s : Settings) (target : FilePath) (content : Text) : Export Unit := do
  match Utf8.encode content with
  | .error fault => fail .serialization target (.encoding fault)
  | .ok bytes =>
    let w ← get
    match w.tree.writeFile s.fileMode target bytes with
    | .error fault => failFile .writing target fault
    | .ok tree =>
      set { w with tree := tree }
      note (successEvent target bytes)

def report (r : Record) (s : Settings) (kind : Report) (directory : FilePath)
    (fileName : Text) : Export FilePath := do
  prepare s directory
  let target := directory.append fileName
  write s target (kind.content r s)
  return target

def reports (r : Record) (s : Settings) (directory : FilePath) :
    List Report → Export (List FilePath)
  | [] => return []
  | kind :: rest => do
    let path ← report r s kind directory kind.fileName
    let paths ← reports r s directory rest
    return path :: paths

def all (r : Record) (s : Settings) (directory : FilePath) : Export (List FilePath) :=
  reports r s directory Report.all

/-- The directory for an export: the one asked for, or that of the settings. -/
def directory (s : Settings) (asked : Option Text) : FilePath :=
  match asked with
  | some t => if t = [] then s.outputDir else t
  | none => s.outputDir

end Export

end ConversionCoverage
