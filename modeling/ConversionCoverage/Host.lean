import ConversionCoverage.FilePath

/-!
# The host

What the result of a run depends on besides its input: how much stack and memory there is, how the
file system grants permissions, and what a console and the handler of a log make of the text that
they are given. A host stays the same throughout a run.
-/

namespace ConversionCoverage

/-- What takes a level of the stack for each level of a value. -/
inductive Descent where
  /-- Reading JSON. -/
  | reading
  /-- Writing a value into a message or as text. -/
  | showing
  /-- Making the directories on the way to a directory. -/
  | directories
  /-- Showing a field of an event. -/
  | logging
  /-- Writing an event as JSON. -/
  | printing
  deriving DecidableEq, Repr

/-- What a process may be kept from doing at a path. -/
inductive Access where
  | lookUp
  | read
  deriving DecidableEq, Repr

/-- A complaint of the console about the markup that it is given. -/
structure ConsoleFault where
  kind : Text
  message : Text
  deriving DecidableEq, Repr

class Host where
  /-- The number of levels that there is room for on the stack. -/
  room : Descent → Nat
  room_ge : ∀ d, 16 ≤ room d
  /-- Whether the stack has room for reading a YAML document. -/
  holds : Text → Bool
  /-- The largest number of blanks that there is memory for. -/
  memory : Nat
  /-- The permission bits that new entries of the file system cannot have. -/
  umask : Nat
  /-- Whether permissions keep the process from looking at what stands at a path, or from reading
  it. -/
  withholds : Access → FilePath → Bool
  /-- What the console does with markup. -/
  console : Text → Except ConsoleFault Unit
  /-- What the handler of a log writes in place of an event, given the message of a fault. -/
  complaint : Text → Text
  /-- Whether the output goes to a terminal. -/
  isTerminal : Bool

theorem Host.exists_room [Host] (d : Descent) : ∃ n, Host.room d = n + 16 :=
  Nat.exists_eq_add_of_le' (Host.room_ge d)

end ConversionCoverage
