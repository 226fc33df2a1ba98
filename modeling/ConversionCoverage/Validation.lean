import ConversionCoverage.Text.Numeral
import ConversionCoverage.Text.Utf8

/-!
# Issues with data

What a schema finds wrong with plain data, and where. A check gives a value or all the issues that
it met, in the order of the fields and items that were looked at. Some faults are no findings about
the data: the first of them is all that comes of a check.
-/

namespace ConversionCoverage

/-- One step on the way from a document to a value inside it. -/
inductive Step where
  | key (name : Text)
  | index (n : Nat)
  deriving DecidableEq, Repr

/-- The shapes of data that have a name in messages. -/
inductive Shape where
  | attempt
  | example
  | record
  | settings
  deriving DecidableEq, Repr

def Shape.name : Shape → Text
  | .attempt => "ConversionResult"
  | .example => "Example"
  | .record => "CoverageRecord"
  | .settings => "ExportConfig"

/-- A fault that is no finding about the data. -/
inductive Interruption where
  /-- A value that a message shows lies within too many others. -/
  | tooDeep
  /-- A message cannot be encoded. -/
  | unencodable (fault : Utf8.EncodingFault)
  deriving DecidableEq, Repr

def Interruption.message : Interruption → Text
  | .tooDeep => "maximum recursion depth exceeded while getting the repr of an object"
  | .unencodable fault => fault.message

/-- Whether the fault lies in a value rather than in the depth of its nesting. -/
def Interruption.concernsValue : Interruption → Bool
  | .tooDeep => false
  | .unencodable _ => true

inductive Problem where
  | missing
  | notText
  | notUnicode
  | notList
  | notShape (shape : Shape)
  | notBool
  | unknownBool
  | notInt
  | fractionalInt
  | infiniteInt
  | unreadableInt
  | hugeInt
  | below (least : Nat)
  | above (most : Nat)
  /-- A fault with a wording of its own. -/
  | fault (message : Text)
  /-- A fault that takes the place of all findings. -/
  | interruption (cause : Interruption)
  deriving DecidableEq, Repr

namespace Problem

def code : Problem → Text
  | .missing => "missing"
  | .notText => "string_type"
  | .notUnicode => "string_unicode"
  | .notList => "list_type"
  | .notShape _ => "model_type"
  | .notBool => "bool_type"
  | .unknownBool => "bool_parsing"
  | .notInt => "int_type"
  | .fractionalInt => "int_from_float"
  | .infiniteInt => "finite_number"
  | .unreadableInt => "int_parsing"
  | .hugeInt => "int_parsing_size"
  | .below _ => "greater_than_equal"
  | .above _ => "less_than_equal"
  | .fault _ => "value_error"
  | .interruption _ => "interruption"

def message : Problem → Text
  | .missing => "Field required"
  | .notText => "Input should be a valid string"
  | .notUnicode => "Input should be a valid string, unable to parse raw data as a unicode string"
  | .notList => "Input should be a valid list"
  | .notShape shape => "Input should be a valid dictionary or instance of " ++ shape.name
  | .notBool => "Input should be a valid boolean"
  | .unknownBool => "Input should be a valid boolean, unable to interpret input"
  | .notInt => "Input should be a valid integer"
  | .fractionalInt => "Input should be a valid integer, got a number with a fractional part"
  | .infiniteInt => "Input should be a finite number"
  | .unreadableInt =>
    "Input should be a valid integer, unable to parse string as an integer"
  | .hugeInt => "Unable to parse input string as an integer, exceeded maximum size"
  | .below least => "Input should be greater than or equal to " ++ Text.ofNat least
  | .above most => "Input should be less than or equal to " ++ Text.ofNat most
  | .fault message => "Value error, " ++ message
  | .interruption cause => cause.message

def interruption? : Problem → Option Interruption
  | .interruption cause => some cause
  | _ => none

end Problem

structure Issue where
  place : List Step
  problem : Problem
  deriving DecidableEq, Repr

/-- The issue seen from a value that holds the faulty one one step further in. -/
def Issue.within (step : Step) (issue : Issue) : Issue :=
  ⟨step :: issue.place, issue.problem⟩

/-- The first interruption among issues. -/
def Issue.interruption? (issues : List Issue) : Option Interruption :=
  issues.findSome? fun issue => issue.problem.interruption?

/-- Data of some shape with at least one issue. -/
structure Invalid where
  shape : Shape
  issues : List Issue
  deriving DecidableEq, Repr

/-- The first line of a report on the issues. -/
def Invalid.headline (invalid : Invalid) : Text :=
  let count := invalid.issues.length
  Text.ofNat count ++ " validation error" ++ (if count = 1 then "" else "s") ++ " for " ++
    invalid.shape.name

/-- A value, or the issues that stand against it. -/
abbrev Checked (α : Type) := Except (List Issue) α

namespace Checked

/-- A single issue at the place itself. -/
def problem {α : Type} (p : Problem) : Checked α := .error [⟨[], p⟩]

/-- The issues of a check, seen from one step further out. -/
def within {α : Type} (step : Step) (c : Checked α) : Checked α :=
  c.mapError fun issues => issues.map (Issue.within step)

/-- Two checks of which the second one takes place whatever the first one finds. -/
def both {α β : Type} : Checked α → Checked β → Checked (α × β)
  | .ok a, .ok b => .ok (a, b)
  | .ok _, .error issues => .error issues
  | .error issues, .ok _ => .error issues
  | .error issues, .error more => .error (issues ++ more)

theorem both_eq_ok_iff {α β : Type} {x : Checked α} {y : Checked β} {a : α} {b : β} :
    both x y = .ok (a, b) ↔ x = .ok a ∧ y = .ok b := by
  cases x <;> cases y <;> simp [both]

theorem bind_eq_ok_iff {ε α β : Type} {f : α → Except ε β} {c : Except ε α} {b : β} :
    c.bind f = .ok b ↔ ∃ a, c = .ok a ∧ f a = .ok b := by
  cases c with
  | ok a =>
    constructor
    · intro h
      exact ⟨a, rfl, h⟩
    · rintro ⟨a, h, hb⟩
      cases h
      exact hb
  | error issues =>
    constructor
    · intro h
      cases h
    · rintro ⟨a, h, _⟩
      cases h

theorem map_eq_ok_iff {ε α β : Type} {f : α → β} {c : Except ε α} {b : β} :
    c.map f = .ok b ↔ ∃ a, c = .ok a ∧ f a = b := by
  cases c with
  | ok a =>
    constructor
    · intro h
      exact ⟨a, rfl, Except.ok.inj h⟩
    · rintro ⟨a, h, rfl⟩
      cases h
      rfl
  | error issues =>
    constructor
    · intro h
      cases h
    · rintro ⟨a, h, _⟩
      cases h

theorem mapError_eq_ok_iff {ε ζ α : Type} {f : ε → ζ} {c : Except ε α} {a : α} :
    c.mapError f = .ok a ↔ c = .ok a := by
  cases c <;> constructor <;> intro h <;> cases h <;> rfl

theorem within_eq_ok_iff {α : Type} {step : Step} {c : Checked α} {a : α} :
    within step c = .ok a ↔ c = .ok a := mapError_eq_ok_iff

end Checked

end ConversionCoverage
