import ConversionCoverage.Datum.Written
import ConversionCoverage.Host
import ConversionCoverage.Json.Printer
import ConversionCoverage.Text.LetterCase

/-!
# Event logs

Events with a level and named fields, the two routes by which they come to the log of a process, and
the two forms in which a log is written: lines for a console, and one JSON object per line. Events
below a threshold are left out. An event whose values are nested too deeply fails at its sender, and
one with an integer of too many digits only leaves a complaint in the log.
-/

namespace ConversionCoverage

inductive Level where
  | debug
  | info
  | warning
  | error
  | critical
  deriving DecidableEq, Repr, Inhabited

namespace Level

def number : Level → Nat
  | .debug => 10
  | .info => 20
  | .warning => 30
  | .error => 40
  | .critical => 50

def name : Level → Text
  | .debug => "debug"
  | .info => "info"
  | .warning => "warning"
  | .error => "error"
  | .critical => "critical"

/-- The thresholds that have a name. -/
def thresholds : List (String × Level) := [
  ("DEBUG", .debug), ("INFO", .info), ("WARN", .warning), ("WARNING", .warning),
  ("ERROR", .error)]

/-- The threshold with the given name in any case; any other name stands for warnings. -/
def threshold (name : Text) : Level :=
  match thresholds.find? fun (word, _) => name.toCapitals = word with
  | some (_, level) => level
  | none => .warning

end Level

structure Event where
  level : Level
  message : Text
  fields : List (Text × Json)

/-- What keeps an event from becoming a line. -/
inductive LineFault where
  | shown (fault : WritingFault)
  | printed (fault : Json.PrintingFault)
  deriving DecidableEq, Repr

namespace LineFault

def message : LineFault → Text
  | .shown fault => fault.message
  | .printed fault => fault.message

/-- Whether the fault gets to the sender. The handler of the log deals with any other. -/
def isRaised : LineFault → Bool
  | .shown .tooDeep | .printed .tooDeep => true
  | .shown (.numeral _) | .printed (.numeral _) => false

end LineFault

namespace Event

/-- The names of what the way to a line puts beside the fields and takes out again at its end,
together with fields of these names. -/
def internalNames : List Text := ["_record", "_from_structlog"]

/-- The fields that come to a line. -/
def shownFields (e : Event) : List (Text × Json) :=
  e.fields.filter fun (name, _) => !internalNames.contains name

/-- Whether a text needs quotes where it stands as the value of a field. -/
def needsQuotes (t : Text) : Bool :=
  t.any fun c =>
    c = ' ' || c = '\t' || c = '=' || c = '\r' || c = '\n' || c = '"' || c = '\''

def shownValue [Host] : Json → Except WritingFault Text
  | .text t => .ok (if needsQuotes t then t.quoted else t)
  | j => (Datum.ofJson j).shown (Host.room .logging)

def sortedFields (e : Event) : List (Text × Json) :=
  e.shownFields.mergeSort fun a b => Text.le a.1 b.1

def consoleLine [Host] (stamp : Text) (e : Event) : Except WritingFault Text := do
  let head := stamp ++ " [" ++ e.level.name.padRight 9 ++ "] "
  if e.shownFields.isEmpty then return head ++ e.message
  let shown ← e.sortedFields.mapM fun (name, value) => return name ++ "=" ++ (← shownValue value)
  return head ++ e.message.padRight 30 ++ " " ++ Text.join " " shown

def jsonMembers (stamp : Text) (e : Event) : List (Text × Json) :=
  Json.lastOfEach (e.shownFields ++ [
    Json.member "event" (.text e.message),
    Json.member "level" (.text e.level.name),
    Json.member "timestamp" (.text stamp)])

def jsonLine [Host] (stamp : Text) (e : Event) : Except Json.PrintingFault Text :=
  (Json.object (e.jsonMembers stamp)).toTextWithin (Host.room .printing) .asciiLine

end Event

inductive LogFormat where
  | console
  | json
  deriving DecidableEq, Repr

variable [Host]

def LogFormat.line (format : LogFormat) (stamp : Text) (e : Event) : Except LineFault Text :=
  match format with
  | .console => (e.consoleLine stamp).mapError .shown
  | .json => (e.jsonLine stamp).mapError .printed

/-- What a handler that writes in this form makes of an event. -/
def LogFormat.emit (format : LogFormat) (stamp : Text) (e : Event) : Except LineFault Text :=
  match format.line stamp e with
  | .ok line => .ok (line ++ "\n")
  | .error fault => if fault.isRaised then .error fault else .ok (Host.complaint fault.message)

/-- Which events are written, and how. -/
structure LogSettings where
  threshold : Level
  format : LogFormat
  deriving DecidableEq, Repr

/-- The settings for the name of a threshold. -/
def LogSettings.ofNames (threshold : Text) (asJson : Bool) : LogSettings :=
  ⟨.threshold threshold, if asJson then .json else .console⟩

/-- What is sent to a log, with the time of sending: an event by a logger that takes fields, or a
message by one that takes nothing else. -/
inductive Sent where
  | structured (stamp : Text) (e : Event)
  | plain (stamp : Text) (level : Level) (message : Text)

/-- The log of a process: the threshold of the loggers that take fields, that of the root to which
all loggers pass on what they are sent, and the form in which each handler of the root writes. -/
structure EventLog where
  loggers : Level
  root : Level
  handlers : List LogFormat

namespace EventLog

/-- The log of a process that has not set it up. -/
def initial : EventLog := ⟨.debug, .warning, []⟩

/-- Both thresholds are set, and one handler takes the place of those that there were. -/
def configure (log : EventLog) (s : LogSettings) : EventLog :=
  let cleared := { log with handlers := [] }
  ⟨s.threshold, s.threshold, cleared.handlers ++ [s.format]⟩

/-- What the root makes of an event: each handler writes it, or nothing is written of one below the
threshold. -/
def handle (log : EventLog) (stamp : Text) (e : Event) : Except LineFault Text :=
  if log.root.number ≤ e.level.number then
    return (← log.handlers.mapM fun format => format.emit stamp e).flatten
  else return []

/-- What is written for what is sent. The loggers that take fields have a threshold of their own in
front of that of the root. -/
def receive (log : EventLog) : Sent → Except LineFault Text
  | .structured stamp e =>
    if log.loggers.number ≤ e.level.number then log.handle stamp e else return []
  | .plain stamp level message => log.handle stamp ⟨level, message, []⟩

/-- The text of the log after all has been sent, or the first fault that got to the sender. -/
def write (log : EventLog) : List Sent → Except LineFault Text
  | [] => return []
  | s :: rest => return (← log.receive s) ++ (← log.write rest)

end EventLog

/-- The text of a log with these settings, with the same time stamp on each line. -/
def LogSettings.write (s : LogSettings) (stamp : Text) (events : List Event) :
    Except LineFault Text :=
  (EventLog.initial.configure s).write (events.map (.structured stamp))

end ConversionCoverage
