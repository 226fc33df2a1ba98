import ConversionCoverage.Tracker

/-!
# Sessions with a tracker

A tracker is asked for one thing after the other, with arguments of any kind. An operation changes
the tracker in place, and what it has changed stays changed if it fails later on. So the arguments
are checked first.
-/

namespace ConversionCoverage.Tracker

variable [Host]

/-- An operation that changes a tracker and may fail on the way. -/
abbrev Operation (α : Type) := ExceptT Fault (StateM Tracker) α

/-- A known example gets the new source, and a new one comes last. -/
def findExample (name source : Json) : Operation Unit := do
  MonadExcept.ofExcept (checkName name)
  modify fun t => { t with examples := setSource name source t.examples }

def recordAttempt (name language severity detail multiple : Json) : Operation Attempt := do
  MonadExcept.ofExcept (checkName name)
  let t ← get
  if !t.examples.any (·.hasName name) then throw (unknown name)
  let a ← MonadExcept.ofExcept (checkAttempt language severity detail multiple)
  modify fun t => { t with examples := setAttempt name a t.examples }
  return a

def buildRecord : Operation Record := do
  let t ← get
  MonadExcept.ofExcept (t.build.mapError .invalid)

inductive Request where
  | find (name source : Json)
  | record (name language severity detail multiple : Json)
  | build
  | count
  | reset
  /-- An export into a workspace. -/
  | write (s : Settings) (asked : Option Text) (w : Workspace)

inductive Answer where
  | done
  | attempt (a : Attempt)
  | record (r : Record)
  | count (n : Nat)
  /-- How an export ended, and the workspace that it left. -/
  | written (result : Except ExportFault (List FilePath)) (w : Workspace)

def perform : Request → Operation Answer
  | .find name source => do
    findExample name source
    return .done
  | .record name language severity detail multiple => do
    return .attempt (← recordAttempt name language severity detail multiple)
  | .build => do
    return .record (← buildRecord)
  | .count => do
    return .count (← get).count
  | .reset => do
    modify reset
    return .done
  | .write s asked w => do
    let (result, after) := (← get).exportRecord s asked w
    return .written result after

/-- The answers to requests that are made one after the other. -/
def session : List Request → StateM Tracker (List (Except Fault Answer))
  | [] => return []
  | q :: rest => do
    let answer ← (perform q).run
    let answers ← session rest
    return answer :: answers

end ConversionCoverage.Tracker
