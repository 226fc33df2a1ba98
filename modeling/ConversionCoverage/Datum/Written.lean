import ConversionCoverage.Binary64.Decimal
import ConversionCoverage.Datum
import ConversionCoverage.Validation

/-!
# Data in messages

The form in which messages show a datum: `None`, `True`, numerals, quoted texts, and lists and
mappings in brackets. A text or a date that stands alone is shown without quotes. An integer of
too many digits cannot be shown, and neither can values within too many others.
-/

namespace ConversionCoverage

/-- Why a datum cannot be shown. -/
inductive WritingFault where
  | numeral (fault : Numeral.Fault)
  | tooDeep
  deriving DecidableEq, Repr

def WritingFault.message : WritingFault → Text
  | .numeral fault => fault.message
  | .tooDeep => Interruption.tooDeep.message

/-- The levels that a time takes below its own: one for a zone and one for its offset. -/
def DateTime.inner (t : DateTime) : Nat :=
  match t.offset with
  | none => 0
  | some seconds => if seconds = 0 then 1 else 2

namespace Datum

mutual

/-- The form of a datum among others, with room for a number of levels. A set takes two, because it
is shown as a list. -/
def quoted : (room : Nat) → Datum → Except WritingFault Text
  | 0, _ => .error .tooDeep
  | _ + 1, .null => .ok "None"
  | _ + 1, .bool true => .ok "True"
  | _ + 1, .bool false => .ok "False"
  | _ + 1, .int n => (Numeral.write n).mapError .numeral
  | _ + 1, .float x => .ok x.toText
  | _ + 1, .text t => .ok t.quoted
  | _ + 1, .bytes bs => .ok (Text.quotedBytes bs)
  | _ + 1, .date d => .ok d.quoted
  | room + 1, .dateTime t => if room < t.inner then .error .tooDeep else .ok t.quoted
  | room + 1, .list items => do return "[" ++ Text.join ", " (← quotedItems room items) ++ "]"
  | room + 1, .pair a b => do return "(" ++ (← quoted room a) ++ ", " ++ (← quoted room b) ++ ")"
  | _ + 1, .set [] => .ok "set()"
  | 1, .set _ => .error .tooDeep
  | room + 2, .set items => do
    return "\x7b" ++ Text.join ", " (← quotedItems room items) ++ "\x7d"
  | room + 1, .mapping entries => do
    return "\x7b" ++ Text.join ", " (← quotedEntries room entries) ++ "\x7d"
  | _ + 1, .enclosing (.mapping _) => .ok "\x7b...\x7d"
  | _ + 1, .enclosing _ => .ok "[...]"

def quotedItems (room : Nat) : List Datum → Except WritingFault (List Text)
  | [] => .ok []
  | d :: rest => do return (← quoted room d) :: (← quotedItems room rest)

def quotedEntries (room : Nat) : List (Datum × Datum) → Except WritingFault (List Text)
  | [] => .ok []
  | (key, value) :: rest => do
    return ((← quoted room key) ++ ": " ++ (← quoted room value)) :: (← quotedEntries room rest)

end

/-- The form of a datum in a message. -/
def shown (room : Nat) (d : Datum) : Except WritingFault Text := d.opened.quoted room

/-- The form of a datum that stands alone. -/
def toText (room : Nat) : Datum → Except WritingFault Text
  | .text t => .ok t
  | .date d => .ok d.toText
  | .dateTime t => .ok t.toText
  | d => d.shown room

end Datum

end ConversionCoverage
