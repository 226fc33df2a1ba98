import ConversionCoverage.Binary64.Decimal
import ConversionCoverage.Text.Numeral
import ConversionCoverage.Yaml.Fault

/-!
# Numbers

The values of scalars that are known to be integers or decimals. Underscores are dropped, and
numbers joined by colons are the digits of a number in base sixty.
-/

namespace ConversionCoverage.Yaml.Number

def dropUnderscores (t : Text) : Text := t.filter (· ≠ .char '_')

/-- Whether a minus sign comes first, and the text without its sign. -/
def splitSign : Text → Bool × Text
  | .char '-' :: rest => (true, rest)
  | .char '+' :: rest => (false, rest)
  | t => (false, t)

def readInt (base : Nat) (t : Text) : Except Fault Int :=
  (Numeral.read base t).mapError .numeral

/-- The value of an integer without its sign. A zero in front makes it octal. -/
def unsignedInt (t : Text) : Except Fault Int :=
  match t with
  | [] => .error .emptyNumber
  | [.char '0'] => .ok 0
  | .char '0' :: .char 'b' :: digits => readInt 2 digits
  | .char '0' :: .char 'x' :: digits => readInt 16 digits
  | .char '0' :: _ => readInt 8 t
  | _ =>
    if t.contains ':' then do
      let digits ← (t.splitOn ':').mapM (readInt 10)
      return digits.foldl (fun n d => n * 60 + d) 0
    else readInt 10 t

def int (text : Text) : Except Fault Int := do
  let t := dropUnderscores text
  if t = [] then throw .emptyNumber
  let (negative, digits) := splitSign t
  let n ← unsignedInt digits
  return if negative then -n else n

def readFloat (t : Text) : Except Fault Binary64 := (Binary64.read t).mapError .decimal

/-- The value of digits in base sixty, the lowest first; sums and products are rounded. -/
def sixties : (digits : List Binary64) → (base : Int) → (sum : Binary64) → Binary64
  | [], _, sum => sum
  | d :: rest, base, sum => sixties rest (base * 60) (sum.add (d.mul (.ofInt base)))

def float (text : Text) : Except Fault Binary64 := do
  let t := (dropUnderscores text).toSmall
  if t = [] then throw .emptyNumber
  let (negative, unsigned) := splitSign t
  if unsigned = ".inf" then return .infinite negative
  if unsigned = ".nan" then return .nan
  let x ←
    if unsigned.contains ':' then do
      let digits ← (unsigned.splitOn ':').mapM readFloat
      pure (sixties digits.reverse 1 (.zero false))
    else readFloat unsigned
  return if negative then x.neg else x

end ConversionCoverage.Yaml.Number
