import ConversionCoverage.Yaml.Timestamp

/-!
# Tags

The tag of a node says what it stands for. A plain scalar without a tag gets one from its text:
words for nothing and for truth values, numbers in several bases, decimals, timestamps, and the
marks `<<` and `=`.
-/

namespace ConversionCoverage.Yaml

inductive Tag where
  | null
  | bool
  | int
  | float
  | binary
  | timestamp
  | omap
  | pairs
  | set
  | str
  | seq
  | map
  | merge
  | value
  /-- A tag that is not one of the format's own. -/
  | unknown
  deriving DecidableEq, Repr

namespace Tag

/-- The names of the tags. -/
def names : List (Tag × String) := [
  (.null, "null"), (.bool, "bool"), (.int, "int"), (.float, "float"), (.binary, "binary"),
  (.timestamp, "timestamp"), (.omap, "omap"), (.pairs, "pairs"), (.set, "set"), (.str, "str"),
  (.seq, "seq"), (.map, "map"), (.merge, "merge"), (.value, "value")]

/-- What the handle `!!` stands for. -/
def namespaceText : Text := "tag:yaml.org,2002:"

def ofText (t : Text) : Tag :=
  match names.find? fun (_, name) => namespaceText ++ Text.ofString name = t with
  | some (tag, _) => tag
  | none => .unknown

def isCollection : Tag → Bool
  | .seq | .map | .set | .omap | .pairs => true
  | _ => false

/-! ## The tags of plain scalars -/

private def isDigit (c : CodePoint) : Bool := c.asciiDigit?.isSome

private def startsWith (p : CodePoint → Bool) (t : Text) : Bool := t.head?.any p

/-- The text without its sign. -/
def dropSign : Text → Text
  | .char '-' :: rest => rest
  | .char '+' :: rest => rest
  | t => t

/-- The text after as many groups of a colon and a number below sixty as possible. -/
def dropSixties : Text → Text
  | .char ':' :: a :: b :: rest =>
    if (a.asciiDigit?.any (· < 6)) && isDigit b then dropSixties rest
    else if isDigit a then dropSixties (b :: rest)
    else .char ':' :: a :: b :: rest
  | [.char ':', a] => if isDigit a then [] else [.char ':', a]
  | t => t

/-- Whether a text is one group of a colon and a number below sixty, or several. -/
def isSixties (t : Text) : Bool := !t.isEmpty && (dropSixties t).isEmpty

/-- Whether a text is an exponent with a sign, or nothing. -/
def isExponent : Text → Bool
  | [] => true
  | .char c :: .char sign :: rest =>
    (c == 'e' || c == 'E') && (sign == '-' || sign == '+') && !rest.isEmpty && rest.all isDigit
  | _ => false

/-- Whether a plain scalar is an integer: binary, octal, decimal, hexadecimal or in base sixty. -/
def isInt (t : Text) : Bool :=
  match dropSign t with
  | [] => false
  | .char '0' :: rest =>
    match rest with
    | [] => true
    | .char 'b' :: digits => !digits.isEmpty && digits.all fun c => c = '0' || c = '1' || c = '_'
    | .char 'x' :: digits => !digits.isEmpty && digits.all fun c => c.hexValue?.isSome || c = '_'
    | digits => digits.all fun c => (c.asciiDigit?.any (· < 8)) || c = '_'
  | t =>
    let rest := t.dropWhile fun c => isDigit c || c = '_'
    startsWith isDigit t && (rest.isEmpty || isSixties rest)

/-- Whether a plain scalar is a decimal: with a point, in base sixty with a point, an infinity or
no number. -/
def isFloat (t : Text) : Bool :=
  let unsigned := dropSign t
  let isRun (c : CodePoint) : Bool := isDigit c || c = '_'
  let decimal :=
    match unsigned.dropWhile isRun with
    | .char '.' :: rest => startsWith isDigit unsigned && isExponent (rest.dropWhile isRun)
    | rest =>
      match dropSixties rest with
      | .char '.' :: fraction =>
        startsWith isDigit unsigned && startsWith (· = ':') rest && fraction.all isRun
      | _ => false
  let pointFirst :=
    match t with
    | .char '.' :: rest => startsWith isDigit rest && isExponent (rest.dropWhile isRun)
    | _ => false
  let words : List Text := [".inf", ".Inf", ".INF"]
  let noNumber : List Text := [".nan", ".NaN", ".NAN"]
  decimal || pointFirst || words.contains unsigned || noNumber.contains t

/-- The words for truth values. -/
def truthWords : List Text := [
  "yes", "Yes", "YES", "no", "No", "NO", "true", "True", "TRUE", "false", "False", "FALSE",
  "on", "On", "ON", "off", "Off", "OFF"]

/-- The words for nothing. -/
def nullWords : List Text := ["~", "null", "Null", "NULL", ""]

/-- The tag of a plain scalar. A line break at its end is not looked at. -/
def ofPlain (text : Text) : Tag :=
  let t := if text.getLast? = some (.char '\n') ∧ 1 < text.length then text.dropLast else text
  if truthWords.contains t then .bool
  else if isFloat t then .float
  else if isInt t then .int
  else if t = "<<" then .merge
  else if nullWords.contains t then .null
  else if (Timestamp.ofText? t).any Timestamp.isPlain then .timestamp
  else if t = "=" then .value
  else .str

end Tag

end ConversionCoverage.Yaml
