import ConversionCoverage.Binary64
import ConversionCoverage.Text

/-!
# JSON values

The members of an object keep their order.
-/

namespace ConversionCoverage

/-- A JSON value. Integers and doubles are different, and doubles include the infinities. -/
inductive Json where
  | null
  | bool (b : Bool)
  | int (n : Int)
  | float (x : Binary64)
  | text (t : Text)
  | array (items : List Json)
  | object (members : List (Text × Json))

namespace Json

instance : Inhabited Json := ⟨.null⟩

instance : Coe Text Json := ⟨.text⟩

instance : Coe Bool Json := ⟨.bool⟩

instance : Coe Nat Json := ⟨fun n => .int n⟩

def member (name : Text) (value : Json) : Text × Json := (name, value)

/-- The members of an object; other values have none. -/
def members : Json → List (Text × Json)
  | .object members => members
  | _ => []

def items : Json → List Json
  | .array items => items
  | _ => []

def get? (j : Json) (name : Text) : Option Json := j.members.lookup name

/-- Sets a member: one that is present keeps its place, and a new one comes last. -/
def setMember (name : Text) (value : Json) : List (Text × Json) → List (Text × Json)
  | [] => [(name, value)]
  | (n, v) :: rest =>
    if n = name then (n, value) :: rest else (n, v) :: setMember name value rest

/-- Members set one after the other, so that of two with one name the later value stays. -/
def lastOfEach (members : List (Text × Json)) : List (Text × Json) :=
  members.foldl (fun set (name, value) => setMember name value set) []

end Json

end ConversionCoverage
