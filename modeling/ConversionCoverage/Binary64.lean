/-!
# Double-precision numbers

A finite double is a significand times a power of two, so its value is an exact rational and
arithmetic on it is exact arithmetic followed by one rounding to the nearest double, ties to the
even significand.
-/

namespace ConversionCoverage

/-- A double-precision number: a signed `significand * 2 ^ exponent`, an infinity, or no number.
The functions of this module build finite numbers in the form that a double is stored in: the
exponent is at least `-1074`, the significand is below `2 ^ 53`, and it is at least `2 ^ 52` unless
the exponent is `-1074`. -/
inductive Binary64 where
  | finite (negative : Bool) (significand : Nat) (exponent : Int)
  | infinite (negative : Bool)
  | nan
  deriving DecidableEq, Repr

namespace Binary64

/-- The quotient of two numbers rounded to the nearest integer, a half to the even neighbour. -/
def divNearest (n d : Nat) : Nat :=
  let q := n / d
  let r := n % d
  if 2 * r < d then q else if d < 2 * r then q + 1 else q + q % 2

/-- The exponent of the largest power of two that is at most `n / d`. -/
def ratioLog2 (n d : Nat) : Int :=
  let e : Int := (n.log2 : Int) - (d.log2 : Int)
  if d <<< e.toNat ≤ n <<< (-e).toNat then e else e - 1

/-- Significand and exponent of the number nearest to `n / d`, if exponents had no upper bound. -/
def nearestRatio (n d : Nat) : Nat × Int :=
  let e := max (ratioLog2 n d - 52) (-1074)
  let m := divNearest (n <<< (-e).toNat) (d <<< e.toNat)
  if m = 1 <<< 53 then (1 <<< 52, e + 1) else (m, e)

def zero (negative : Bool) : Binary64 := .finite negative 0 (-1074)

/-- The double nearest to `n / d`; beyond the largest double it is an infinity. -/
def ofRatio (negative : Bool) (n d : Nat) : Binary64 :=
  if n = 0 then zero negative
  else
    let (m, e) := nearestRatio n d
    if 971 < e then .infinite negative else .finite negative m e

/-- The double nearest to `m * 2 ^ e`. -/
def ofDyadic (negative : Bool) (m : Nat) (e : Int) : Binary64 :=
  ofRatio negative (m <<< e.toNat) (1 <<< (-e).toNat)

def ofInt (n : Int) : Binary64 := ofRatio (n < 0) n.natAbs 1

def neg : Binary64 → Binary64
  | .finite s m e => .finite (!s) m e
  | .infinite s => .infinite (!s)
  | .nan => .nan

/-- The product, rounded. -/
def mul : Binary64 → Binary64 → Binary64
  | .finite s m e, .finite t n f => ofDyadic (s != t) (m * n) (e + f)
  | .finite s m _, .infinite t => if m = 0 then .nan else .infinite (s != t)
  | .infinite s, .finite t n _ => if n = 0 then .nan else .infinite (s != t)
  | .infinite s, .infinite t => .infinite (s != t)
  | _, _ => .nan

/-- A significand with its sign, scaled to the smaller exponent `f`. -/
def scaled (negative : Bool) (m : Nat) (e f : Int) : Int :=
  let n : Int := (m <<< (e - f).toNat : Nat)
  if negative then -n else n

/-- The sum, rounded. A sum of zero is negative only if both terms are. -/
def add : Binary64 → Binary64 → Binary64
  | .finite s m e, .finite t n f =>
    let low := min e f
    let sum := scaled s m e low + scaled t n f low
    if sum = 0 then zero (s && t) else ofDyadic (sum < 0) sum.natAbs low
  | .infinite s, .infinite t => if s = t then .infinite s else .nan
  | .infinite s, .finite _ _ _ => .infinite s
  | .finite _ _ _, .infinite t => .infinite t
  | _, _ => .nan

def truncate? : Binary64 → Option Int
  | .finite s m e =>
    let n := m <<< e.toNat >>> (-e).toNat
    some (if s then -n else n)
  | _ => none

/-- The integer that a number equals. -/
def toInt? (x : Binary64) : Option Int :=
  match x with
  | .finite _ m e => if (m <<< e.toNat) % (1 <<< (-e).toNat) = 0 then x.truncate? else none
  | _ => none

end Binary64

end ConversionCoverage
