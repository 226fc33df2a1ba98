import ConversionCoverage.Text

/-!
# Control sequences

What a terminal takes for a command rather than for text: an escape character and an opening bracket,
any number of digits, semicolons and question marks, and a letter. Output that goes elsewhere is
written without them.
-/

namespace ConversionCoverage.ControlSequence

def isParameter : CodePoint → Bool
  | .char c => c.isDigit || c = ';' || c = '?'
  | .half _ => false

def isFinal : CodePoint → Bool
  | .char c => c.isAlpha
  | .half _ => false

/-- The length of the rest of a control sequence at the head of the text after an escape
character. -/
def length? : Text → Option Nat
  | .char '[' :: rest =>
    let parameters := rest.takeWhile isParameter
    if (rest.drop parameters.length).head?.any isFinal then some (parameters.length + 2) else none
  | _ => none

/-- The text without control sequences, of one of which `skip` code points are left. -/
def stripFrom : (skip : Nat) → Text → Text
  | _, [] => []
  | skip + 1, _ :: rest => stripFrom skip rest
  | 0, c :: rest =>
    match if c = '\x1b' then length? rest else none with
    | some n => stripFrom n rest
    | none => c :: stripFrom 0 rest

def strip (t : Text) : Text := stripFrom 0 t

end ConversionCoverage.ControlSequence
