import ConversionCoverage.Settings
import ConversionCoverage.Text.Numeral

/-!
# Command lines

The commands and the options that they take. Options may stand between other arguments, as long
words with an optional `=` and a value, or as clusters of letters of which the last may take a
value. After two hyphens there are no more options, and of an option given twice the later value
counts.
-/

namespace ConversionCoverage

/-- What an export is asked to do. -/
structure ExportRequest where
  record : Text
  output : Option Text
  config : Option Text
  topErrors : Option Cap
  verbose : Bool
  deriving DecidableEq, Repr

inductive Command where
  | help
  | version
  | exportRecord (request : ExportRequest)
  | summary (record : Text)
  | initConfig (output : Text) (force : Bool)
  deriving DecidableEq, Repr

namespace Command

def usage : Text :=
  "Usage: examplecov [--version] COMMAND\n" ++
    "  export RECORD [-o DIRECTORY] [-c FILE] [-n COUNT] [-V]\n" ++
    "  summary RECORD\n" ++
    "  init-config [-o FILE] [-f]\n"

/-- The options of all commands. -/
inductive Switch where
  | help
  | version
  | output
  | config
  | topErrors
  | verbose
  | force
  deriving DecidableEq, Repr

def Switch.takesValue : Switch → Bool
  | .output | .config | .topErrors => true
  | .help | .version | .verbose | .force => false

/-- The options of a command by their long and short names. -/
structure Options where
  long : List (String × Switch)
  short : List (Char × Switch)

def Options.general : Options := ⟨[("--version", .version), ("--help", .help)], [('v', .version)]⟩

def Options.forExport : Options :=
  ⟨[("--output", .output), ("--config", .config), ("--top-errors", .topErrors),
      ("--verbose", .verbose), ("--help", .help)],
    [('o', .output), ('c', .config), ('n', .topErrors), ('V', .verbose)]⟩

def Options.forSummary : Options := ⟨[("--help", .help)], []⟩

def Options.forInitConfig : Options :=
  ⟨[("--output", .output), ("--force", .force), ("--help", .help)],
    [('o', .output), ('f', .force)]⟩

def Options.long? (options : Options) (name : Text) : Option Switch :=
  (options.long.find? fun (word, _) => name = word).map (·.2)

def Options.short? (options : Options) (c : CodePoint) : Option Switch :=
  (options.short.find? fun (letter, _) => c = .char letter).map (·.2)

/-- The options of one argument with their values, and an option that still waits for its value. -/
structure Cluster where
  given : List (Switch × Text)
  waiting : Option Switch

/-- The options of a cluster of letters. -/
def Options.readLetters (options : Options) : Text → Option Cluster
  | [] => some ⟨[], none⟩
  | c :: rest => do
    let s ← options.short? c
    if s.takesValue then
      return if rest = [] then ⟨[], some s⟩ else ⟨[(s, rest)], none⟩
    else
      let more ← options.readLetters rest
      return ⟨(s, []) :: more.given, more.waiting⟩

/-- The options of an argument that starts with a hyphen. -/
def Options.readArgument (options : Options) (argument : Text) : Option Cluster :=
  let name := argument.takeWhile (· ≠ .char '=')
  let hasValue := name.length < argument.length
  match options.long? name with
  | some s =>
    if s.takesValue then
      some (if hasValue then ⟨[(s, argument.drop (name.length + 1))], none⟩ else ⟨[], some s⟩)
    else if hasValue then none
    else some ⟨[(s, [])], none⟩
  | none =>
    if argument.take 2 = "--" then none else options.readLetters (argument.drop 1)

structure Parsed where
  given : List (Switch × Text)
  others : List Text

def isOption (argument : Text) : Bool := argument.head? = some (.char '-') && 1 < argument.length

/-- The options and the other arguments of a list of arguments. Unless options may stand between
other arguments, the first of those ends them. -/
def Options.readAll (options : Options) (between : Bool) : List Text → Option Parsed
  | [] => some ⟨[], []⟩
  | argument :: rest =>
    if argument = "--" then some ⟨[], rest⟩
    else if isOption argument then do
      let cluster ← options.readArgument argument
      match cluster.waiting with
      | none =>
        let parsed ← options.readAll between rest
        return ⟨cluster.given ++ parsed.given, parsed.others⟩
      | some s =>
        match rest with
        | [] => none
        | value :: rest =>
          let parsed ← options.readAll between rest
          return ⟨cluster.given ++ [(s, value)] ++ parsed.given, parsed.others⟩
    else if between then do
      let parsed ← options.readAll between rest
      return ⟨parsed.given, argument :: parsed.others⟩
    else some ⟨[], argument :: rest⟩

namespace Parsed

def has (parsed : Parsed) (s : Switch) : Bool := parsed.given.any fun (t, _) => t = s

/-- The value of an option, the last one given. -/
def value? (parsed : Parsed) (s : Switch) : Option Text :=
  (parsed.given.reverse.find? fun (t, _) => t = s).map (·.2)

end Parsed

/-- The number of reasons that the value of an option asks for. -/
def readCap? (t : Text) : Option Cap :=
  match Numeral.read 10 t with
  | .ok n => if h : 0 < n.toNat then some ⟨n.toNat, h⟩ else none
  | .error _ => none

def ofExportArguments? (arguments : List Text) : Option Command := do
  let parsed ← Options.forExport.readAll true arguments
  if parsed.has .help then return .help
  match parsed.others with
  | [record] =>
    let topErrors ← match parsed.value? .topErrors with
      | none => some none
      | some t => (readCap? t).map some
    return .exportRecord
      ⟨record, parsed.value? .output, parsed.value? .config, topErrors, parsed.has .verbose⟩
  | _ => none

def ofSummaryArguments? (arguments : List Text) : Option Command := do
  let parsed ← Options.forSummary.readAll true arguments
  if parsed.has .help then return .help
  match parsed.others with
  | [record] => return .summary record
  | _ => none

/-- The name of a settings file where none is given. -/
def usualSettingsFile : Text := "examplecov.yaml"

def ofInitConfigArguments? (arguments : List Text) : Option Command := do
  let parsed ← Options.forInitConfig.readAll true arguments
  if parsed.has .help then return .help
  match parsed.others with
  | [] => return .initConfig ((parsed.value? .output).getD usualSettingsFile) (parsed.has .force)
  | _ => none

def ofArguments? (arguments : List Text) : Option Command := do
  let parsed ← Options.general.readAll false arguments
  match parsed.given with
  | (.version, _) :: _ => return .version
  | _ :: _ => return .help
  | [] =>
    match parsed.others with
    | [] => none
    | name :: rest =>
      if name = "export" then ofExportArguments? rest
      else if name = "summary" then ofSummaryArguments? rest
      else if name = "init-config" then ofInitConfigArguments? rest
      else none

end Command

end ConversionCoverage
