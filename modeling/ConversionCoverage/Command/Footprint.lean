import ConversionCoverage.Command.Run

/-!
# The footprint of a command

The paths that a command can read or change, so that no more of a file system than these has to be
looked at.
-/

namespace ConversionCoverage.Command

def namedPaths : Command → List FilePath
  | .help | .version => []
  | .exportRecord request =>
    [request.record, request.output.getD [], request.config.getD []].map .ofText
  | .summary record => [record]
  | .initConfig output _ => [output]

/-- The directory of an export and the files in it, as far as the settings can be read. -/
def exportPaths [Host] (command : Command) (tree : FileTree) : List FilePath :=
  match command with
  | .exportRecord request =>
    match ((Session.loadSettings request.config).run.run ⟨⟨tree, []⟩, [], []⟩).1 with
    | .ok s =>
      let directory := Export.directory s request.output
      directory :: Report.all.map fun (kind : Report) => directory.append kind.fileName
    | .error _ => []
  | _ => []

/-- The locations that come up on the way along parts from another location. -/
def visited (location : Location) : List Text → List Location
  | [] => []
  | part :: rest =>
    if part = ".." then visited location.dropLast rest
    else (location ++ [part]) :: visited (location ++ [part]) rest

/-- The locations on the way to paths, with the number of slashes that the path starts with. -/
def locations (paths : List FilePath) : List (Nat × Location) :=
  paths.flatMap fun p => (visited [] p.parts).map fun location => (p.slashes, location)

end ConversionCoverage.Command
