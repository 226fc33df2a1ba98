import ConversionCoverage.Binary64
import ConversionCoverage.Text.Blank
import ConversionCoverage.Text.Digit
import ConversionCoverage.Text.LetterCase
import ConversionCoverage.Text.Quoted

/-!
# Decimal numerals of doubles

Reading rounds the written decimal to the nearest double. The shortest numeral has the fewest
digits that read back as the same number and among those the digits nearest to its value; each
candidate is read back before it is taken, and the exact decimal expansion stands last.
-/

namespace ConversionCoverage.Binary64

def digitCount (n : Nat) : Nat := (Nat.toDigits 10 n).length

/-- The double nearest to `digits * 10 ^ exponent`. Decimals above `10 ^ 310` and below
`10 ^ (-330)` lie beyond all doubles, whatever their digits. -/
def ofDecimal (negative : Bool) (digits : Nat) (exponent : Int) : Binary64 :=
  let top := digitCount digits + exponent
  if digits = 0 ∨ top < -330 then zero negative
  else if 310 < top then .infinite negative
  else ofRatio negative (digits * Nat.pow 10 exponent.toNat) (Nat.pow 10 (-exponent).toNat)

/-- The position of the leading digit of `m * 2 ^ e`: the largest `p` with `10 ^ p` at most the
value. At 400 decimal places every double but zero has its leading digit. -/
def leadingPlace (m : Nat) (e : Int) : Int :=
  (digitCount ((m <<< e.toNat * Nat.pow 10 400) >>> (-e).toNat) : Int) - 401

/-- The neighbours of `m * 2 ^ e` among the multiples of `10 ^ k`, the nearer one first. -/
def neighbours (m : Nat) (e k : Int) : List Nat :=
  let n := m <<< e.toNat * Nat.pow 10 (-k).toNat
  let d := 1 <<< (-e).toNat * Nat.pow 10 k.toNat
  let low := n / d
  if divNearest n d = low then [low, low + 1] else [low + 1, low]

/-- Digits and exponent of a decimal with its last digit at place `k` that reads back as
`m * 2 ^ e`. -/
def decimalAt? (m : Nat) (e k : Int) : Option (Nat × Int) :=
  ((neighbours m e k).find? fun digits => ofDecimal false digits k = .finite false m e).map
    fun digits => (digits, k)

/-- Digits and exponent of the exact value of `m * 2 ^ e`. -/
def expansion (m : Nat) (e : Int) : Nat × Int :=
  if 0 ≤ e then (m <<< e.toNat, 0) else (m * Nat.pow 5 (-e).toNat, e)

/-- Digits and exponent of the shortest decimal that reads back as `m * 2 ^ e`. -/
def shortest (m : Nat) (e : Int) : Nat × Int :=
  let top := leadingPlace m e
  ((List.range 17).findSome? fun (i : Nat) => decimalAt? m e (top - i)).getD (expansion m e)

/-- The digits without trailing zeros, and the place of the decimal point after the first digit. -/
def significantDigits (digits : Nat) (exponent : Int) : Text × Int :=
  let all := Text.ofNat digits
  ((all.reverse.dropWhile (· = .char '0')).reverse, all.length + exponent)

/-- The exponent part of a numeral: a sign and at least two digits. -/
def exponentPart (e : Int) : Text :=
  'e' :: (if e < 0 then .char '-' else .char '+') :: Text.zeroPadded 2 e.natAbs

/-- The numeral of `0.digits * 10 ^ point`: positional from `0.0001` up to sixteen digits before
the point, and with an exponent otherwise. -/
def layOut (digits : Text) (point : Int) : Text :=
  if -4 < point ∧ point ≤ 16 then
    if point ≤ 0 then
      "0." ++ Text.zeros (-point).toNat ++ digits
    else if digits.length ≤ point then
      digits ++ Text.zeros (point.toNat - digits.length) ++ ".0"
    else
      digits.take point.toNat ++ "." ++ digits.drop point.toNat
  else
    let fraction : Text := if digits.length ≤ 1 then [] else '.' :: digits.drop 1
    digits.take 1 ++ fraction ++ exponentPart (point - 1)

def signPart (negative : Bool) : Text := if negative then "-" else ""

/-- The shortest numeral that reads back as the number. -/
def toText : Binary64 → Text
  | .nan => "nan"
  | .infinite s => signPart s ++ "inf"
  | .finite s m e =>
    if m = 0 then signPart s ++ "0.0"
    else
      let (digits, exponent) := shortest m e
      let (shown, point) := significantDigits digits exponent
      signPart s ++ layOut shown point

/-- The number rounded to a fixed number of decimal places, its exact value deciding. -/
def toFixed (places : Nat) : Binary64 → Text
  | .nan => "nan"
  | .infinite s => signPart s ++ "inf"
  | .finite s m e =>
    let n := divNearest (m <<< e.toNat * Nat.pow 10 places) (1 <<< (-e).toNat)
    let fraction : Text :=
      if places = 0 then [] else '.' :: Text.zeroPadded places (n % Nat.pow 10 places)
    signPart s ++ Text.ofNat (n / Nat.pow 10 places) ++ fraction

structure ReadingFault where
  literal : Text
  deriving DecidableEq, Repr

def ReadingFault.message (fault : ReadingFault) : Text :=
  "could not convert string to float: " ++ fault.literal.quoted

def digitsValue (digits : Text) : Nat :=
  (digits.filterMap CodePoint.decimalValue?).foldl (fun n d => n * 10 + d) 0

/-- The leading decimal digits of a text and the rest. -/
def spanDigits (t : Text) : Text × Text := t.span fun c => c.decimalValue?.isSome

/-- The exponent written after a significand: nothing, or `e`, a sign and digits to the end. -/
def readExponent? : Text → Option Int
  | [] => some 0
  | .char c :: rest =>
    if c = 'e' ∨ c = 'E' then
      let (negative, digits) : Bool × Text := match rest with
        | .char '-' :: digits => (true, digits)
        | .char '+' :: digits => (false, digits)
        | digits => (false, digits)
      if digits ≠ [] ∧ digits.all (·.decimalValue?.isSome) then
        let n : Int := digitsValue digits
        some (if negative then -n else n)
      else none
    else none
  | .half _ :: _ => none

/-- The number written without a sign. -/
def readUnsigned? (negative : Bool) (t : Text) : Option Binary64 :=
  let small := t.toAsciiSmall
  if small = "inf" ∨ small = "infinity" then some (.infinite negative)
  else if small = "nan" then some .nan
  else
    let (whole, rest) := spanDigits t
    let (fraction, rest) : Text × Text := match rest with
      | .char '.' :: rest => spanDigits rest
      | rest => ([], rest)
    if whole = [] ∧ fraction = [] then none
    else (readExponent? rest).map fun e =>
      ofDecimal negative (digitsValue (whole ++ fraction)) (e - fraction.length)

/-- The number written by a text: blanks around, a sign, digits with a point and an exponent, or
the words for infinity and for no number. -/
def read (t : Text) : Except ReadingFault Binary64 :=
  let found := match t.trimBoth CodePoint.isSpace with
    | .char '-' :: rest => readUnsigned? true rest
    | .char '+' :: rest => readUnsigned? false rest
    | rest => readUnsigned? false rest
  match found with
  | some x => .ok x
  | none => .error ⟨t⟩

end ConversionCoverage.Binary64
