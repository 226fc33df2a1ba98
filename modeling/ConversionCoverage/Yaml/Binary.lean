import ConversionCoverage.Yaml.Fault

/-!
# Binary scalars

Bytes written in base 64. Code points outside the alphabet are skipped, and reading ends where the
padding of a group is complete.
-/

namespace ConversionCoverage.Yaml.Binary

/-- The value of a letter of the alphabet. -/
def letter? (c : Char) : Option Nat :=
  let n := c.toNat
  if c.isUpper then some (n - 0x41)
  else if c.isLower then some (n - 0x61 + 26)
  else if c.isDigit then some (n - 0x30 + 52)
  else if c = '+' then some 62
  else if c = '/' then some 63
  else none

/-- The bytes of the letters to come, when `place` letters of a group have been read, `pads` padding
signs after them, and `bits` are the bits of the last letter that belong to the next byte. -/
def decodeFrom (place pads bits : Nat) : List Char → Except Fault (List UInt8)
  | [] => if place = 0 then .ok [] else .error .malformed
  | c :: rest =>
    if c = '=' then
      if place < 2 then decodeFrom place pads bits rest
      else if 4 ≤ place + pads + 1 then .ok []
      else decodeFrom place (pads + 1) bits rest
    else
      match letter? c with
      | none => decodeFrom place pads bits rest
      | some v =>
        match place with
        | 0 => decodeFrom 1 0 v rest
        | 1 => do
          return UInt8.ofNat (bits * 4 + v / 16) :: (← decodeFrom 2 0 (v % 16) rest)
        | 2 => do
          return UInt8.ofNat (bits * 16 + v / 4) :: (← decodeFrom 3 0 (v % 4) rest)
        | _ => do
          return UInt8.ofNat (bits * 64 + v) :: (← decodeFrom 0 0 0 rest)

def decode (t : Text) : Except Fault (List UInt8) :=
  let characters : List Char := t.filterMap fun
    | .char c => if c.toNat < 128 then some c else none
    | .half _ => none
  if characters.length < t.length then .error .malformed else decodeFrom 0 0 0 characters

end ConversionCoverage.Yaml.Binary
