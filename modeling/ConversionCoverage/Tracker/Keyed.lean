import ConversionCoverage.Tracker.Session

/-!
# Trackers as mappings

A tracker as the mappings that it keeps, with the keys under which their values stand. Keys may be
of any kind that can be looked up, and numbers of different kinds are one key if they are equal.
Nothing here says that an example stands under its own name or an attempt under its own language.
-/

namespace ConversionCoverage

/-- What a value is looked up by. Lists and objects cannot be looked up. -/
inductive Key where
  | null
  | number (n : Int ⊕ Binary64)
  | text (t : Text)
  deriving DecidableEq, Repr

def Json.key? : Json → Option Key
  | .null => some .null
  | .text t => some (.text t)
  | .array _ | .object _ => none
  | j => (Datum.ofJson j).number?.map .number

/-- Entries in the order in which their keys were first set. -/
abbrev Keyed (α : Type) := List (Json × α)

namespace Keyed

variable {α : Type}

def isUnder (key : Json) (entry : Json × α) : Bool :=
  Datum.sameKey (.ofJson entry.1) (.ofJson key)

def find? (key : Json) (entries : Keyed α) : Option α :=
  (List.find? (isUnder key) entries).map Prod.snd

/-- The entries after one is set. One that is present keeps its place and its key as it was first
given, and a new one comes last. -/
def put (key : Json) (value : α) : Keyed α → Keyed α
  | [] => [(key, value)]
  | entry :: rest =>
    if isUnder key entry then (entry.1, value) :: rest else entry :: put key value rest

def values (entries : Keyed α) : List α := entries.map Prod.snd

end Keyed

/-- An example with the attempts that are kept for it by language. -/
structure KeyedExample where
  name : Json
  source : Json
  attempts : Keyed Attempt

def KeyedExample.values (e : KeyedExample) : TrackedExample :=
  ⟨e.name, e.source, Keyed.values e.attempts⟩

/-- The examples by name. -/
structure KeyedTracker where
  provider : Json
  version : Json
  examples : Keyed KeyedExample

namespace KeyedTracker

open Tracker

variable [Host]

def new (provider version : Json) : KeyedTracker := ⟨provider, version, []⟩

/-- What can be read of a tracker: the values, without their keys. -/
def values (t : KeyedTracker) : Tracker :=
  ⟨t.provider, t.version, (Keyed.values t.examples).map KeyedExample.values⟩

def found (t : KeyedTracker) (name source : Json) : Except Fault KeyedTracker := do
  checkName name
  let e : KeyedExample := match Keyed.find? name t.examples with
    | none => ⟨name, source, []⟩
    | some e => { e with source := source }
  return { t with examples := Keyed.put name e t.examples }

def record (t : KeyedTracker) (name language severity detail multiple : Json) :
    Except Fault (Attempt × KeyedTracker) := do
  checkName name
  match Keyed.find? name t.examples with
  | none => throw (unknown name)
  | some e =>
    let a ← checkAttempt language severity detail multiple
    checkName language
    let changed := { e with attempts := Keyed.put language a e.attempts }
    return (a, { t with examples := Keyed.put name changed t.examples })

/-- The answer to a request and the tracker after it. What does not change the tracker only reads
its values. -/
def answer (t : KeyedTracker) : Request → Except Fault Answer × KeyedTracker
  | .find name source =>
    match t.found name source with
    | .ok after => (.ok .done, after)
    | .error fault => (.error fault, t)
  | .record name language severity detail multiple =>
    match t.record name language severity detail multiple with
    | .ok (a, after) => (.ok (.attempt a), after)
    | .error fault => (.error fault, t)
  | .reset => (.ok .done, { t with examples := [] })
  | q => (((perform q).run.run t.values).1, t)

def answers (t : KeyedTracker) : List Request → List (Except Fault Answer) × KeyedTracker
  | [] => ([], t)
  | q :: rest =>
    let (first, after) := t.answer q
    let (more, last) := answers after rest
    (first :: more, last)

end KeyedTracker

end ConversionCoverage
