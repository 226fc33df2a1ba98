import ConversionCoverage.Binary64.Decimal
import ConversionCoverage.Json
import ConversionCoverage.Text.Numeral

/-!
# Printing JSON

A document is written on one line, with a blank after each comma and colon, or with one item per
line and a given indentation. Quotes, backslashes and control characters are escaped, and on
request everything outside printable ASCII. An integer of too many digits cannot be printed, and
neither can arrays and objects within too many others.
-/

namespace ConversionCoverage.Json

/-- How a document is laid out. -/
structure Layout where
  /-- The indentation of one level, or nothing for a document on one line. -/
  indent : Option Text
  /-- Whether only printable ASCII is written as it is. -/
  ascii : Bool

/-- A document on one line that keeps characters outside ASCII. -/
def Layout.line : Layout := ⟨none, false⟩

/-- A document on one line in ASCII. -/
def Layout.asciiLine : Layout := ⟨none, true⟩

/-- A document with one item per line. -/
def Layout.indented (indent : Text) : Layout := ⟨some indent, false⟩

/-- The escape `\u` for a number below `0x10000`. -/
def unicodeEscape (n : Nat) : Text := "\\u" ++ Text.hex 4 n

/-- The escape of a code point: two escapes for one that lies above `0xFFFF`. -/
def fullEscape (n : Nat) : Text :=
  if n < 0x10000 then unicodeEscape n
  else
    unicodeEscape (0xD800 + (n - 0x10000) / 0x400) ++
      unicodeEscape (0xDC00 + (n - 0x10000) % 0x400)

def escapePoint (ascii : Bool) (c : CodePoint) : Text :=
  if c = '"' then "\\\""
  else if c = '\\' then "\\\\"
  else if c = '\n' then "\\n"
  else if c = '\r' then "\\r"
  else if c = '\t' then "\\t"
  else if c = '\x0c' then "\\f"
  else if c = '\x08' then "\\b"
  else if c.toNat < 0x20 then unicodeEscape c.toNat
  else if ascii && 0x7F ≤ c.toNat then fullEscape c.toNat
  else [c]

def printText (ascii : Bool) (t : Text) : Text :=
  .char '"' :: t.flatMap (escapePoint ascii) ++ [.char '"']

/-- A number; the three that have no numeral have words. -/
def printFloat : Binary64 → Text
  | .nan => "NaN"
  | .infinite true => "-Infinity"
  | .infinite false => "Infinity"
  | x => x.toText

def Layout.lineStart (layout : Layout) (depth : Nat) : Text :=
  match layout.indent with
  | none => []
  | some indent => '\n' :: indent.repeated depth

/-- What stands between two items at the given depth. -/
def Layout.separator (layout : Layout) (depth : Nat) : Text :=
  match layout.indent with
  | none => ", "
  | some _ => .char ',' :: layout.lineStart depth

mutual

/-- A value whose brackets stand at the given depth. -/
def print (layout : Layout) (depth : Nat) : Json → Text
  | .null => "null"
  | .bool true => "true"
  | .bool false => "false"
  | .int n => Text.ofInt n
  | .float x => printFloat x
  | .text t => printText layout.ascii t
  | .array [] => "[]"
  | .array (item :: rest) =>
    "[" ++ layout.lineStart (depth + 1) ++ print layout (depth + 1) item ++
      printItems layout depth rest
  | .object [] => "\x7b\x7d"
  | .object ((name, value) :: rest) =>
    "\x7b" ++ layout.lineStart (depth + 1) ++ printText layout.ascii name ++ ": " ++
      print layout (depth + 1) value ++ printMembers layout depth rest

/-- The items after the first one of an array, and its closing bracket. -/
def printItems (layout : Layout) (depth : Nat) : List Json → Text
  | [] => layout.lineStart depth ++ "]"
  | item :: rest =>
    layout.separator (depth + 1) ++ print layout (depth + 1) item ++ printItems layout depth rest

/-- The members after the first one of an object, and its closing bracket. -/
def printMembers (layout : Layout) (depth : Nat) : List (Text × Json) → Text
  | [] => layout.lineStart depth ++ "\x7d"
  | (name, value) :: rest =>
    layout.separator (depth + 1) ++ printText layout.ascii name ++ ": " ++
      print layout (depth + 1) value ++ printMembers layout depth rest

end

def toText (layout : Layout) (j : Json) : Text := print layout 0 j

/-- Why a value cannot be printed. -/
inductive PrintingFault where
  | numeral (fault : Numeral.Fault)
  | tooDeep
  deriving DecidableEq, Repr

def PrintingFault.message : PrintingFault → Text
  | .numeral fault => fault.message
  | .tooDeep => "maximum recursion depth exceeded while encoding a JSON object"

mutual

/-- Looks for what keeps a value from being printed, with room for a number of arrays and objects
in each other. -/
def check : (room : Nat) → Json → Except PrintingFault Unit
  | _, .int n => do discard ((Numeral.write n).mapError .numeral)
  | 0, .array _ => .error .tooDeep
  | room + 1, .array items => checkItems room items
  | 0, .object _ => .error .tooDeep
  | room + 1, .object members => checkMembers room members
  | _, _ => .ok ()

def checkItems (room : Nat) : List Json → Except PrintingFault Unit
  | [] => .ok ()
  | item :: rest => do
    check room item
    checkItems room rest

def checkMembers (room : Nat) : List (Text × Json) → Except PrintingFault Unit
  | [] => .ok ()
  | (_, value) :: rest => do
    check room value
    checkMembers room rest

end

def toTextWithin (room : Nat) (layout : Layout) (j : Json) : Except PrintingFault Text := do
  check room j
  return j.toText layout

end ConversionCoverage.Json
