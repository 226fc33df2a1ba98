import ConversionCoverage.Command.Arguments
import ConversionCoverage.Export
import ConversionCoverage.Markup
import ConversionCoverage.Record.File
import ConversionCoverage.Settings.File
import ConversionCoverage.Text.ControlSequence

/-!
# Running commands

What a command shows on the console, writes to its output and does to the file tree. Faults of the
files that a command is given are shown and end it; other faults are left to the caller.
-/

namespace ConversionCoverage

/-- Something shown on the console, in markup. -/
inductive Shown where
  | line (t : Text)
  | panel (t title : Text)
  | table (columns : List Text) (rows : List (List Text))
  deriving DecidableEq, Repr

/-- The markup of what is shown, piece by piece. -/
def Shown.markup : Shown → List Text
  | .line t => [t]
  | .panel t title => [title, t]
  | .table columns rows => columns ++ rows.flatten

/-- A fault that a command does not deal with. -/
inductive CommandFault where
  | record (fault : Record.LoadFault)
  | settings (fault : Settings.LoadFault)
  | file (fault : FileFault)
  | console (fault : ConsoleFault)
  | encoding (fault : Utf8.EncodingFault)
  deriving DecidableEq, Repr

def CommandFault.message : CommandFault → Text
  | .record fault => fault.message
  | .settings fault => fault.message
  | .file fault => fault.message
  | .console fault => fault.message
  | .encoding fault => fault.message

/-- What a command works on. -/
structure Terminal where
  workspace : Workspace
  shown : List Shown
  output : Text

inductive Stop where
  | exit (code : Nat)
  | fault (fault : CommandFault)
  deriving DecidableEq, Repr

abbrev Session (α : Type) := ExceptT Stop (StateM Terminal) α

namespace Session

def fault {α : Type} (f : CommandFault) : Session α := throw (.fault f)

def exit {α : Type} (code : Nat) : Session α := throw (.exit code)

variable [Host]

/-- Lets the console take markup, up to what it cannot take. -/
def render : List Text → Session Unit
  | [] => return
  | markup :: rest =>
    match Host.console markup with
    | .ok () => render rest
    | .error f => fault (.console f)

def showing (s : Shown) : Session Unit := do
  modify fun t => { t with shown := t.shown ++ [s] }
  render s.markup

def line (t : Text) : Session Unit := showing (.line t)

def panel (t title : Text) : Session Unit := showing (.panel t title)

def table (columns : List Text) (rows : List (List Text)) : Session Unit :=
  showing (.table columns rows)

/-- Writes to the output. Only a terminal gets control sequences. -/
def echo (t : Text) : Session Unit := do
  let written := if Host.isTerminal then t else ControlSequence.strip t
  match Utf8.encode written with
  | .ok _ => modify fun terminal => { terminal with output := terminal.output ++ written }
  | .error f => fault (.encoding f)

def complain {α : Type} (message : Text) : Session α := do
  line ("[red]Error:[/red] " ++ message)
  exit 1

def tree : Session FileTree := do return (← get).workspace.tree

def setTree (tree : FileTree) : Session Unit :=
  modify fun t => { t with workspace := { t.workspace with tree := tree } }

/-- The settings in a file; without a file the standard ones. -/
def loadSettings (path : Option Text) : Session Settings := do
  match path.filter (· ≠ []) with
  | none => return .standard
  | some path =>
    match Settings.load (← tree) path with
    | .ok s => return s
    | .error f =>
      if f.isReported then complain ("Invalid configuration: " ++ f.message)
      else fault (.settings f)

def loadRecord (path : Text) : Session Record := do
  match Record.load (← tree) path with
  | .ok r => return r
  | .error f =>
    if f.isMissing then complain f.message
    else if f.isInvalid then complain ("Invalid coverage record: " ++ f.message)
    else fault (.record f)

def exportAll (r : Record) (s : Settings) (directory : FilePath) : Session (List FilePath) := do
  let t ← get
  let (result, w) := (Export.all r s directory).run.run t.workspace
  set { t with workspace := w }
  match result with
  | .ok paths => return paths
  | .error (.unusablePath f) => fault (.file f)
  | .error f => complain f.message

end Session

namespace LanguageTable

def columns : List Text := ["Language", "Converted", "Total", "Success", "Top Error"]

/-- The number of code points of a reason that are shown. -/
def reasonWidth : Nat := 50

def shortReason (t : Text) : Text :=
  if reasonWidth < t.length then t.take reasonWidth ++ "..." else t

def pctText (x : Binary64) : Text := x.toFixed 1 ++ "%"

def row (language : Text) (s : LanguageStatistic) : List Text :=
  let reason : Text := match s.frequentErrors with
    | [] => "-"
    | e :: _ => e.reason
  [Markup.escape language, Text.ofNat s.shares.successes.number, Text.ofNat s.total,
    pctText s.shares.successes.pct, Markup.escape (shortReason reason)]

def overallRow (s : ProviderStatistic) : List Text :=
  ["Overall", Text.ofNat s.shares.successes.number, Text.ofNat s.totalConversions,
    "[bold]" ++ pctText s.shares.successes.pct ++ "[/bold]", "-"]

def rows (r : Record) : List (List Text) :=
  (r.languageStatistics (some 1)).map (fun (language, s) => row language s) ++
    [overallRow (r.providerStatistic none)]

def heading (r : Record) : Text :=
  "\n[bold]" ++ Markup.escape r.provider ++ "[/bold] " ++ Markup.escape r.version

end LanguageTable

namespace Command

def versionNumber : Text := "0.1.0"

variable [Host]

def showDone (what : Text) : Session Unit := Session.line ("[green]✓[/green] " ++ what)

/-- The settings for an export, with the number of reasons that was asked for. -/
def ExportRequest.apply (request : ExportRequest) (s : Settings) : Settings :=
  match request.topErrors with
  | some cap => { s with topErrors := some cap }
  | none => s

def runExport (request : ExportRequest) : Session Unit := do
  let s := ExportRequest.apply request (← Session.loadSettings request.config)
  let r ← Session.loadRecord request.record
  let directory := Export.directory s request.output
  Session.panel
    ("[bold]Exporting:[/bold] " ++ request.record ++ "\n[dim]Output: " ++ directory.toText ++
      "[/dim]")
    "📊 Example Coverage"
  let written ← Session.exportAll r s directory
  Session.line (LanguageTable.heading r)
  Session.table LanguageTable.columns (LanguageTable.rows r)
  for path in written do
    showDone ("Written " ++ path.toText)

/-- Writes the digest of the record in a file to the output. -/
def runSummary (path : Text) : Session Unit := do
  Session.echo (← Session.loadRecord path).digest

def runInitConfig (output : Text) (force : Bool) : Session Unit := do
  let path : FilePath := output
  let tree ← Session.tree
  match tree.lookUp path with
  | .error f => Session.fault (.file f)
  | .ok found =>
    if found.isSome && !force then
      Session.line ("[yellow]⚠️  Config file already exists:[/yellow] " ++ path.toText)
      Session.line "[dim]Use --force to overwrite[/dim]"
      Session.exit 1
    let (result, tree) := tree.ensureDir FileTree.usualDirMode path.parent
    Session.setTree tree
    match result with
    | .error f => Session.fault (.file f)
    | .ok () =>
      match Utf8.encode Settings.sample with
      | .error f => Session.fault (.encoding f)
      | .ok bytes =>
        match tree.writeFile FileTree.usualFileMode path bytes with
        | .error f => Session.fault (.file f)
        | .ok tree =>
          Session.setTree tree
          showDone ("Created configuration: " ++ path.toText)

def run : Command → Session Unit
  | .help => return
  | .version =>
    Session.line ("[bold blue]examplecov[/bold blue] v" ++ versionNumber)
  | .exportRecord request => runExport request
  | .summary record => runSummary record
  | .initConfig output force => runInitConfig output force

/-- Which events a command logs. -/
def logSettings : Command → LogSettings
  | .exportRecord request => .ofNames (if request.verbose then "INFO" else "WARNING") false
  | _ => .ofNames "WARNING" false

def exitCode : Except Stop Unit → Nat
  | .ok () => 0
  | .error (.exit code) => code
  | .error (.fault _) => 1

def usageCode : Nat := 2

/-- What a command leaves behind when it is run on a tree. -/
def runOn (command : Command) (tree : FileTree) : Except Stop Unit × Terminal :=
  command.run.run.run ⟨⟨tree, []⟩, [], []⟩

end Command

end ConversionCoverage
