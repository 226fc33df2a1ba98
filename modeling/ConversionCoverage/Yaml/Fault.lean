import ConversionCoverage.Binary64.Decimal
import ConversionCoverage.Calendar
import ConversionCoverage.Text.Numeral

/-!
# Faults of YAML documents

Most faults are faults of form and have no wording of their own. The others arise from a scalar
whose kind is known and whose content does not fit, or from collections within too many others.
-/

namespace ConversionCoverage.Yaml

/-- Why a document has no value. -/
inductive Fault where
  /-- The document breaks the rules of the format, or uses a tag that stands for nothing. -/
  | malformed
  | numeral (fault : Numeral.Fault)
  /-- A decimal that is no numeral. -/
  | decimal (fault : Binary64.ReadingFault)
  | calendar (fault : Calendar.Fault)
  /-- A truth value that is no word for one. -/
  | unknownTruthValue (word : Text)
  | emptyNumber
  /-- A date that does not look like one. -/
  | notATimestamp
  /-- A mapping in the place of a date. -/
  | timestampOfMapping
  /-- An escape for a number that no code point has. -/
  | codePointOutOfRange
  /-- An escape for a number of more than 31 bits. -/
  | codePointTooLarge
  | tooDeep
  deriving DecidableEq, Repr

def Fault.message : Fault → Text
  | .malformed => []
  | .numeral fault => fault.message
  | .decimal fault => fault.message
  | .calendar fault => fault.message
  | .unknownTruthValue word => word.quoted
  | .emptyNumber => "string index out of range"
  | .notATimestamp => "'NoneType' object has no attribute 'groupdict'"
  | .timestampOfMapping => "expected string or bytes-like object, got 'list'"
  | .codePointOutOfRange => "chr() arg not in range(0x110000)"
  | .codePointTooLarge => "Python int too large to convert to C int"
  | .tooDeep => "maximum recursion depth exceeded"

/-- Whether the fault is that a value lies out of its range or is badly written, rather than one
of form. -/
def Fault.concernsValue : Fault → Bool
  | .numeral _ | .decimal _ | .calendar _ | .codePointOutOfRange => true
  | .malformed | .unknownTruthValue _ | .emptyNumber | .notATimestamp | .timestampOfMapping
  | .codePointTooLarge | .tooDeep => false

end ConversionCoverage.Yaml
