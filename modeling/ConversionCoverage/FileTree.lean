import ConversionCoverage.Host
import ConversionCoverage.Text.Quoted
import ConversionCoverage.Text.Utf8

/-!
# File trees

Files and directories with their permission bits, below a directory at which all paths start.
Reading and changing a tree fail for the reasons that a file system gives. Permission bits are what
new entries get and old ones keep. They do not bind the process that changes a tree, which may write
everywhere; whether it may look at a path and read it depends on the host. There are no links.
-/

namespace ConversionCoverage

/-- The names on the way from the top of a tree to an entry. -/
abbrev Location := List Text

inductive FileEntry where
  | file (mode : Nat) (bytes : List UInt8)
  | dir (mode : Nat)
  deriving DecidableEq, Repr

def FileEntry.isDir : FileEntry → Bool
  | .file _ _ => false
  | .dir _ => true

/-- The entries below the top of a tree. -/
structure FileTree where
  entries : List (Location × FileEntry)
  deriving DecidableEq, Repr, Inhabited

inductive FileTree.Refusal where
  | absent
  | present
  | notDirectory
  | isDirectory
  | nameTooLong
  | denied
  deriving DecidableEq, Repr

def FileTree.Refusal.number : FileTree.Refusal → Nat
  | .absent => 2
  | .present => 17
  | .notDirectory => 20
  | .isDirectory => 21
  | .nameTooLong => 36
  | .denied => 13

def FileTree.Refusal.wording : FileTree.Refusal → Text
  | .absent => "No such file or directory"
  | .present => "File exists"
  | .notDirectory => "Not a directory"
  | .isDirectory => "Is a directory"
  | .nameTooLong => "File name too long"
  | .denied => "Permission denied"

inductive FileFault where
  | refused (refusal : FileTree.Refusal) (path : Text)
  | unencodable (fault : Utf8.EncodingFault)
  | zeroByte
  /-- More directories are missing on the way than can be made. -/
  | tooManyParents
  deriving DecidableEq, Repr

def FileFault.message : FileFault → Text
  | .refused refusal path =>
    "[Errno " ++ Text.ofNat refusal.number ++ "] " ++ refusal.wording ++ ": " ++ path.quoted
  | .unencodable fault => fault.message
  | .zeroByte => "embedded null byte"
  | .tooManyParents => "maximum recursion depth exceeded while calling a Python object"

namespace FileTree

/-- The permission bits of a new entry for which `mode` is asked. -/
def granted [Host] (mode : Nat) : Nat := mode &&& (0o777 ^^^ Host.umask)

/-- The permission bits asked for a directory on the way to another one. -/
def usualDirMode : Nat := 0o777

def usualFileMode : Nat := 0o666

/-- The largest number of bytes of a name. -/
def maxName : Nat := 255

/-- The largest number of bytes of a path. -/
def maxPath : Nat := 4095

/-- The permission bits of the directory at the top. -/
def topMode : Nat := 0o755

def get? (tree : FileTree) : Location → Option FileEntry
  | [] => some (.dir topMode)
  | location => tree.entries.lookup location

/-- The entries after one of them is set: one that is present keeps its place. -/
def setEntry (location : Location) (entry : FileEntry) :
    List (Location × FileEntry) → List (Location × FileEntry)
  | [] => [(location, entry)]
  | (l, e) :: rest =>
    if l = location then (l, entry) :: rest else (l, e) :: setEntry location entry rest

def set (tree : FileTree) (location : Location) (entry : FileEntry) : FileTree :=
  ⟨setEntry location entry tree.entries⟩

def isDirAt (tree : FileTree) (location : Location) : Bool :=
  (tree.get? location).any FileEntry.isDir

/-- Whether a half of a surrogate pair stands for a byte that is no part of a character. Names in a
file system need not be texts, and `0xDC80` to `0xDCFF` stand for such bytes. -/
def isByte (h : Fin 2048) : Bool := 0x480 ≤ h.val && h.val < 0x500

/-- Whether a code point can be written in a path. -/
def isWritable : CodePoint → Bool
  | .char _ => true
  | .half h => isByte h

/-- The number of bytes of a text in a file system. -/
def byteLength (t : Text) : Nat := t.foldl (fun n p => n + width p) 0
where
  width : CodePoint → Nat
    | .char c => c.utf8Size
    | .half h => if isByte h then 1 else 3

/-- The halves in a path that stand for nothing, up to the end of their run; `position` code points
come before the text. -/
def encodingFault? (position : Nat) : Text → Option Utf8.EncodingFault
  | [] => none
  | .char _ :: rest => encodingFault? (position + 1) rest
  | .half h :: rest =>
    if isByte h then encodingFault? (position + 1) rest
    else some ⟨h, position, position + 1 + (rest.takeWhile Utf8.isHalf).length⟩

/-- The location that parts lead to from another location. -/
def walk (tree : FileTree) (location : Location) : List Text → Except Refusal Location
  | [] => .ok location
  | part :: rest =>
    if !tree.isDirAt location then .error .notDirectory
    else if part = ".." then walk tree location.dropLast rest
    else if maxName < byteLength part then .error .nameTooLong
    else if (tree.get? (location ++ [part])).isNone then .error .absent
    else walk tree (location ++ [part]) rest

/-- The written form of a path, if a file system can take it. -/
def accept (path : FilePath) : Except FileFault Text :=
  let written := path.toText
  match encodingFault? 0 written with
  | some fault => .error (.unencodable fault)
  | none =>
    if written.contains '\x00' then .error .zeroByte
    else if maxPath < byteLength written then .error (.refused .nameTooLong written)
    else .ok written

def find (tree : FileTree) (path : FilePath) : Except FileFault Location := do
  let written ← accept path
  (tree.walk [] path.parts).mapError (.refused · written)

/-- What a request for an entry that may not be there yet meets. -/
inductive Place where
  /-- An entry stands there. -/
  | taken (location : Location)
  /-- A directory named by a dot or by double dots. -/
  | special
  /-- Nothing stands there, and its directory does. -/
  | free (location : Location)

/-- The place that parts lead to. -/
def place (tree : FileTree) (parts : List Text) : Except Refusal Place :=
  match parts.getLast? with
  | none => .ok .special
  | some last => do
    let directory ← tree.walk [] parts.dropLast
    if !tree.isDirAt directory then throw .notDirectory
    if last = ".." then return .special
    if maxName < byteLength last then throw .nameTooLong
    let location := directory ++ [last]
    return if (tree.get? location).isSome then .taken location else .free location

def Refusal.isAbsence : Refusal → Bool
  | .absent | .notDirectory => true
  | _ => false

/-- The entry at a path, if there is one. A path that no file system takes leads nowhere. -/
def status (tree : FileTree) (path : FilePath) : Except FileFault (Option FileEntry) :=
  match tree.find path with
  | .ok location => .ok (tree.get? location)
  | .error (.refused refusal written) =>
    if refusal.isAbsence then .ok none else .error (.refused refusal written)
  | .error _ => .ok none

def readFile (tree : FileTree) (path : FilePath) : Except FileFault (List UInt8) := do
  let location ← tree.find path
  match tree.get? location with
  | some (.file _ bytes) => return bytes
  | _ => throw (.refused .isDirectory path.toText)

/-! ## Changes -/

variable [Host]

def makeDir (tree : FileTree) (mode : Nat) (path : FilePath) : Except FileFault FileTree := do
  let written ← accept path
  match tree.place path.parts with
  | .error refusal => throw (.refused refusal written)
  | .ok (.free location) => return tree.set location (.dir (granted mode))
  | .ok _ => throw (.refused .present written)

/-- The tree with the file at a path holding the given bytes. A file that is present keeps its
permission bits. -/
def writeFile (tree : FileTree) (mode : Nat) (path : FilePath) (bytes : List UInt8) :
    Except FileFault FileTree := do
  let written ← accept path
  match tree.place path.parts with
  | .error refusal => throw (.refused refusal written)
  | .ok .special => throw (.refused .isDirectory written)
  | .ok (.free location) => return tree.set location (.file (granted mode) bytes)
  | .ok (.taken location) =>
    match tree.get? location with
    | some (.file present _) => return tree.set location (.file present bytes)
    | _ => throw (.refused .isDirectory written)

/-- What is left of a failed request to make a directory: nothing if one is there already. -/
def unlessDir (tree : FileTree) (path : FilePath) (fault : FileFault) : Except FileFault Unit :=
  match fault with
  | .refused _ _ =>
    match tree.status path with
    | .ok found => if found.any FileEntry.isDir then .ok () else .error fault
    | .error other => .error other
  | _ => .error fault

/-- Makes a directory whose parent is there. -/
def ensureLast (tree : FileTree) (mode : Nat) (path : FilePath) :
    Except FileFault Unit × FileTree :=
  match tree.makeDir mode path with
  | .ok changed => (.ok (), changed)
  | .error (.refused .absent written) => (.error (.refused .absent written), tree)
  | .error fault => (tree.unlessDir path fault, tree)

/-- Makes a directory, and before it those on the way to it, unless they are there already, of
which at most `room` can be missing together with it. The tree keeps the directories that were made
before a failure. -/
def ensureWithin : (room : Nat) → FileTree → (mode : Nat) → FilePath →
    Except FileFault Unit × FileTree
  | 0, tree, _, _ => (.error .tooManyParents, tree)
  | room + 1, tree, mode, path =>
    match tree.makeDir mode path with
    | .ok changed => (.ok (), changed)
    | .error (.refused .absent written) =>
      if path.parts = [] then (.error (.refused .absent written), tree)
      else
        match ensureWithin room tree usualDirMode path.parent with
        | (.error fault, changed) => (.error fault, changed)
        | (.ok (), changed) => changed.ensureLast mode path
    | .error fault => (tree.unlessDir path fault, tree)

def ensureDir (tree : FileTree) (mode : Nat) (path : FilePath) :
    Except FileFault Unit × FileTree :=
  ensureWithin (Host.room .directories) tree mode path

/-! ## What permissions allow -/

/-- The entry at a path, if the process may look for it. -/
def lookUp (tree : FileTree) (path : FilePath) : Except FileFault (Option FileEntry) :=
  if Host.withholds .lookUp path then .error (.refused .denied path.toText) else tree.status path

/-- The bytes of the file at a path, if the process may read it. -/
def openFile (tree : FileTree) (path : FilePath) : Except FileFault (List UInt8) :=
  if Host.withholds .read path then .error (.refused .denied path.toText) else tree.readFile path

end FileTree

end ConversionCoverage
