import ConversionCoverage.Binary64
import ConversionCoverage.Text

/-!
# Percentages

The share of a count in a total, on a scale from 0 to 100. The quotient is rounded to a double
first, and its product with a hundred is rounded again. Of an empty total the share is zero.
-/

namespace ConversionCoverage.Percentage

/-- The double nearest to `count / total`. Beyond all doubles it is an infinity. -/
def quotient (count total : Int) : Binary64 :=
  .ofRatio (decide (count < 0) != decide (total < 0)) count.natAbs total.natAbs

def rate (count total : Int) : Binary64 :=
  if total = 0 then .zero false else (quotient count total).mul (.ofInt 100)

inductive Fault where
  | quotientTooLarge
  deriving DecidableEq, Repr

def Fault.message : Fault → Text
  | .quotientTooLarge => "integer division result too large for a float"

def isInfinite : Binary64 → Bool
  | .infinite _ => true
  | _ => false

/-- The share of a count in a total, provided that the quotient is a double. -/
def rate? (count total : Int) : Except Fault Binary64 :=
  if total ≠ 0 ∧ isInfinite (quotient count total) then .error .quotientTooLarge
  else .ok (rate count total)

end ConversionCoverage.Percentage
