import ConversionCoverage.Calendar
import ConversionCoverage.Json

/-!
# Plain data

What a document holds before it has been checked against a schema: the values of JSON and, from
YAML documents, bytes, dates, sets, ordered pairs and mappings with keys of any kind.
-/

namespace ConversionCoverage

inductive Datum where
  | null
  | bool (b : Bool)
  | int (n : Int)
  | float (x : Binary64)
  | text (t : Text)
  | bytes (bs : List UInt8)
  | date (d : Date)
  | dateTime (t : DateTime)
  | list (items : List Datum)
  | pair (first second : Datum)
  | set (items : List Datum)
  | mapping (entries : List (Datum × Datum))
  /-- A list or a mapping inside itself, with what it holds down to some depth. -/
  | enclosing (opened : Datum)

namespace Datum

instance : Inhabited Datum := ⟨.null⟩

instance : Coe Text Datum := ⟨.text⟩

def kind : Datum → Text
  | .null => "NoneType"
  | .bool _ => "bool"
  | .int _ => "int"
  | .float _ => "float"
  | .text _ => "str"
  | .bytes _ => "bytes"
  | .date _ => "date"
  | .dateTime _ => "datetime"
  | .list _ => "list"
  | .pair _ _ => "tuple"
  | .set _ => "set"
  | .mapping _ => "dict"
  | .enclosing opened => opened.kind

/-- A datum without the mark that it stands inside itself. -/
def opened : Datum → Datum
  | .enclosing d => d
  | d => d

/-- Whether a datum counts as something: null, false, zero and all that is empty do not. -/
def isPresent : Datum → Bool
  | .null => false
  | .bool b => b
  | .int n => n != 0
  | .float (.finite _ m _) => m != 0
  | .float _ => true
  | .text t => !t.isEmpty
  | .bytes bs => !bs.isEmpty
  | .list items | .set items => !items.isEmpty
  | .mapping entries => !entries.isEmpty
  | .date _ | .dateTime _ | .pair _ _ | .enclosing _ => true

/-- Whether a datum can be a key of a mapping. -/
def isKey : Datum → Bool
  | .list _ | .set _ | .mapping _ | .enclosing _ => false
  | .pair a b => a.isKey && b.isKey
  | _ => true

/-- The number that a key stands for; truth values count as 0 and 1. -/
def number? : Datum → Option (Int ⊕ Binary64)
  | .bool b => some (.inl (if b then 1 else 0))
  | .int n => some (.inl n)
  | .float x => some (match x.toInt? with
    | some n => .inl n
    | none => .inr x)
  | _ => none

/-- Whether two keys find the same entry. Numbers of different kinds do if they are equal. -/
def sameKey (a b : Datum) : Bool :=
  match a.number?, b.number? with
  | some x, some y => x = y
  | none, none =>
    match a, b with
    | .null, .null => true
    | .text s, .text t => s = t
    | .bytes x, .bytes y => x = y
    | .date d, .date e => d = e
    | .dateTime s, .dateTime t => s.sameMoment t
    | _, _ => false
  | _, _ => false

/-- Sets an entry: a key that is present keeps its place, and a new one comes last. -/
def setEntry (key value : Datum) : List (Datum × Datum) → List (Datum × Datum)
  | [] => [(key, value)]
  | (k, v) :: rest =>
    if sameKey k key then (k, value) :: rest else (k, v) :: setEntry key value rest

/-- Entries set one after the other, so that of two with one key the later value stays. -/
def lastOfEach (entries : List (Datum × Datum)) : List (Datum × Datum) :=
  entries.foldl (fun set (key, value) => setEntry key value set) []

/-- The value under a name. -/
def field? (name : Text) : List (Datum × Datum) → Option Datum
  | [] => none
  | (.text t, value) :: rest => if t = name then some value else field? name rest
  | _ :: rest => field? name rest

mutual

def ofJson : Json → Datum
  | .null => .null
  | .bool b => .bool b
  | .int n => .int n
  | .float x => .float x
  | .text t => .text t
  | .array items => .list (ofJsonItems items)
  | .object members => .mapping (ofJsonMembers members)

def ofJsonItems : List Json → List Datum
  | [] => []
  | j :: rest => ofJson j :: ofJsonItems rest

def ofJsonMembers : List (Text × Json) → List (Datum × Datum)
  | [] => []
  | (name, j) :: rest => (.text name, ofJson j) :: ofJsonMembers rest

end

end Datum

end ConversionCoverage
