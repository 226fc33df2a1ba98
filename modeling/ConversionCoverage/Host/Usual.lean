import ConversionCoverage.Host
import ConversionCoverage.Markup
import ConversionCoverage.Yaml.Token

/-!
# The usual host

A process that may read everything, with a stack of about a thousand levels of which reading a YAML
document takes two for each collection, and with a console that complains of closing tags only. What
it writes does not go to a terminal.
-/

namespace ConversionCoverage

/-- The number of collections that are open at most at the same time, `opened` of them before. -/
def Yaml.Token.nesting (opened : Nat) : List Yaml.Token → Nat
  | [] => opened
  | token :: rest =>
    match token with
    | .blockSequenceStart | .blockMappingStart | .flowSequenceStart | .flowMappingStart =>
      nesting (opened + 1) rest
    | .blockEnd | .flowSequenceEnd | .flowMappingEnd => max opened (nesting (opened - 1) rest)
    | _ => nesting opened rest

namespace Host

/-- How many collections a YAML document can have in each other. -/
def usualNesting : Nat := 485

/-- In scope only where it is asked for, so that nothing else depends on it. -/
scoped instance usual : Host where
  room
    | .reading => 985
    | .showing => 980
    | .directories => 980
    | .logging => 975
    | .printing => 975
  room_ge d := by cases d <;> decide
  holds t := Yaml.Token.nesting 0 (Yaml.Token.ofText t.normalizeBreaks).1 ≤ usualNesting
  memory := 0x1000000000
  umask := 0o022
  withholds _ _ := false
  console t := (Markup.check t).mapError fun fault => ⟨"MarkupError", fault.message⟩
  complaint message := "--- Logging error ---\n" ++ message ++ "\n"
  isTerminal := false

end Host

end ConversionCoverage
