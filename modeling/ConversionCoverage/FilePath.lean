import ConversionCoverage.Text

/-!
# File paths

A path is a number of leading slashes and a list of parts. Empty parts and single dots are dropped
when a path is read; double dots are kept, because they depend on what stands in the tree.
-/

namespace ConversionCoverage

structure FilePath where
  slashes : Nat
  parts : List Text
  deriving DecidableEq, Repr, Inhabited

namespace FilePath

/-- The number of leading slashes that count: exactly two are kept, more count as one. -/
def leadingSlashes (t : Text) : Nat :=
  let n := (t.takeWhile (· = .char '/')).length
  if n ≤ 2 then n else 1

def isPart (piece : Text) : Bool := piece ≠ [] && piece ≠ "."

def ofText (t : Text) : FilePath := ⟨leadingSlashes t, (t.splitOn '/').filter isPart⟩

instance : Coe Text FilePath := ⟨ofText⟩

/-- The written form of a path; the current directory is a dot. -/
def toText (p : FilePath) : Text :=
  if p.slashes = 0 ∧ p.parts = [] then "."
  else Text.repeated "/" p.slashes ++ Text.join "/" p.parts

/-- A path that starts at another one, unless it has leading slashes. -/
def append (p q : FilePath) : FilePath :=
  if q.slashes = 0 then ⟨p.slashes, p.parts ++ q.parts⟩ else q

def parent (p : FilePath) : FilePath := ⟨p.slashes, p.parts.dropLast⟩

def name (p : FilePath) : Text := p.parts.getLast?.getD []

/-- The last dot of the name and all after it, unless the dot comes first or last. -/
def suffix (p : FilePath) : Text :=
  let tail := (p.name.reverse.takeWhile (· ≠ .char '.')).reverse
  if tail = [] ∨ p.name.length ≤ tail.length + 1 then [] else '.' :: tail

end FilePath

end ConversionCoverage
