import ConversionCoverage.Command.Footprint
import ConversionCoverage.Command.Screen
import ConversionCoverage.Host.Usual

/-!
# The command line program

Takes a picture of the files that a command can touch, runs the command on it, and carries out the
changes.
-/

namespace ConversionCoverage.Main

open scoped Host

def toString (t : Text) : String :=
  String.ofList (t.filterMap fun
    | .char c => some c
    | .half _ => none)

def written (slashes : Nat) (location : Location) : String :=
  toString (FilePath.toText ⟨slashes, location⟩)

def rights (mode : Nat) : IO.FileRight :=
  let bits (n : Nat) : IO.AccessRight := ⟨n.testBit 2, n.testBit 1, n.testBit 0⟩
  ⟨bits (mode / 64), bits (mode / 8), bits mode⟩

/-- Adds the entry at a location of the file system to a picture. -/
def addEntry (tree : FileTree) (slashes : Nat) (location : Location) : IO FileTree := do
  let path := (← IO.currentDir) / written slashes location
  if (tree.get? location).isSome then return tree
  else if ← path.isDir then return tree.set location (.dir 0)
  else if ← path.pathExists then
    let bytes ← IO.FS.readBinFile path
    return tree.set location (.file 0 bytes.toList)
  else return tree

/-- Adds the entries on the way to paths to a picture. -/
def addPaths (tree : FileTree) (paths : List FilePath) : IO FileTree :=
  (Command.locations paths).foldlM
    (fun tree (slashes, location) => addEntry tree slashes location) tree

/-- Carries out the change of an entry. -/
def carryOut (before : FileTree) (slashes : Nat) (location : Location) (entry : FileEntry) :
    IO Unit := do
  let path := (← IO.currentDir) / written slashes location
  let isNew := (before.get? location).isNone
  match entry with
  | .dir mode =>
    if isNew then
      IO.FS.createDir path
      IO.setAccessRights path (rights mode)
  | .file mode bytes =>
    if before.get? location ≠ some entry then
      IO.FS.writeBinFile path ⟨bytes.toArray⟩
      if isNew then IO.setAccessRights path (rights mode)

def now : IO Text := do
  let (_, path) ← IO.FS.createTempFile
  let data ← path.metadata
  IO.FS.removeFile path
  return (DateTime.ofEpochSeconds data.modified.sec.toNat).toText

def run (command : Command) : IO UInt32 := do
  let named ← addPaths ⟨[]⟩ command.namedPaths
  let paths := command.exportPaths named
  let before ← addPaths named paths
  let (result, t) := command.runOn before
  let anchors := Command.locations (command.namedPaths ++ paths)
  for (location, entry) in t.workspace.tree.entries do
    let slashes := ((anchors.find? fun (_, l) => l = location).map (·.1)).getD 0
    carryOut before slashes location entry
  unless t.workspace.log.isEmpty do
    match command.logSettings.write (← now) t.workspace.log with
    | .ok text => IO.eprint (toString text)
    | .error fault => IO.eprintln (toString fault.message)
  if command = .help then IO.print (toString Command.usage)
  IO.print (toString (Screen.toText t.shown))
  IO.print (toString t.output)
  if let .error (.fault f) := result then IO.eprintln (toString f.message)
  return (Command.exitCode result).toUInt32

end ConversionCoverage.Main

def main (arguments : List String) : IO UInt32 := do
  match ConversionCoverage.Command.ofArguments?
    (arguments.map ConversionCoverage.Text.ofString) with
  | some command => ConversionCoverage.Main.run command
  | none =>
    IO.eprint (ConversionCoverage.Main.toString ConversionCoverage.Command.usage)
    return ConversionCoverage.Command.usageCode.toUInt32
