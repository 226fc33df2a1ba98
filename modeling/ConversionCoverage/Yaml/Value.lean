import ConversionCoverage.Datum
import ConversionCoverage.Host
import ConversionCoverage.Yaml.Binary
import ConversionCoverage.Yaml.Node
import ConversionCoverage.Yaml.Number

/-!
# Values of YAML nodes

The third reading turns nodes into plain data. Collections are filled level by level, so of several
faults the one that lies in the fewest collections arises, and of those the first. A mapping takes
over the entries of the mappings merged into it; its own entries come after them and win.
-/

namespace ConversionCoverage.Yaml

/-- A result, or a fault and its rank: the number of collections in which it lies. -/
abbrev Ranked (α : Type) : Type := Except (Nat × Fault) α

namespace Ranked

/-- Both results, or the fault of lower rank; of two with one rank the first. -/
def both {α β : Type} (a : Ranked α) (b : Ranked β) : Ranked (α × β) :=
  match a, b with
  | .ok x, .ok y => .ok (x, y)
  | .error e, .ok _ => .error e
  | .ok _, .error e => .error e
  | .error e, .error f => .error (if f.1 < e.1 then f else e)

/-- The results of both lists. -/
def append {α : Type} (a b : Ranked (List α)) : Ranked (List α) :=
  (both a b).map fun (x, y) => x ++ y

end Ranked

namespace Node

mutual

/-- The text of a node that stands for a scalar: of a mapping, the value under the key `=`. -/
def scalarText? : Node → Option Text
  | .scalar _ text => some text
  | .mapping _ entries => defaultText? entries
  | _ => none

/-- The text of the value under the first key `=`. -/
def defaultText? : List (Node × Node) → Option Text
  | [] => none
  | (key, node) :: rest => if key.tag = .value then scalarText? node else defaultText? rest

end

/-- The truth value that a word stands for. -/
def truthValue (text : Text) : Except Fault Bool :=
  let word := text.toSmall
  if word = "yes" ∨ word = "true" ∨ word = "on" then .ok true
  else if word = "no" ∨ word = "false" ∨ word = "off" then .ok false
  else .error (.unknownTruthValue word)

def timestamp (text : Text) : Except Fault Datum :=
  match Timestamp.ofText? (if text.getLast? = some (.char '\n') then text.dropLast else text) with
  | none => .error .notATimestamp
  | some t =>
    match t.time with
    | none => (t.toDate.map .date).mapError .calendar
    | some (hour, minute, second, fraction, zone) =>
      ((t.toDateTime hour minute second fraction zone).map .dateTime).mapError .calendar

def scalarValue (tag : Tag) (text : Text) : Except Fault Datum :=
  match tag with
  | .null => .ok .null
  | .bool => (truthValue text).map .bool
  | .int => (Number.int text).map .int
  | .float => (Number.float text).map .float
  | .binary => (Binary.decode text).map .bytes
  | .timestamp => timestamp text
  | .str => .ok (.text text)
  | _ => .error .malformed

/-- What a mapping with a value under the key `=` stands for, in the place of a scalar. -/
def defaultValue (tag : Tag) (entries : List (Node × Node)) : Except Fault Datum :=
  match defaultText? entries with
  | none => .error .malformed
  | some text => if tag = .timestamp then .error .timestampOfMapping else scalarValue tag text

/-- A result that lies in `depth` collections. -/
def ranked {α : Type} (depth : Nat) (result : Except Fault α) : Ranked α :=
  result.mapError fun fault => (depth, fault)

/-- A fault of form of a node that lies in `depth` collections. -/
def misfit {α : Type} (depth : Nat) : Ranked α := .error (depth, .malformed)

mutual

/-- Whether all that is to be merged into a mapping are mappings. -/
def mergesMappings : List (Node × Node) → Bool
  | [] => true
  | (key, node) :: rest => (key.tag != .merge || isSource node) && mergesMappings rest

/-- Whether a node can be merged into a mapping: a mapping, or a sequence of mappings. -/
def isSource : Node → Bool
  | .mapping _ entries => mergesMappings entries
  | .sequence _ nodes => areSources nodes
  | .enclosing _ opened => isSource opened
  | .scalar _ _ => false

def areSources : List Node → Bool
  | [] => true
  | node :: rest => !node.isSequence && isSource node && areSources rest

end

mutual

def value (depth : Nat) : Node → Ranked Datum
  | .enclosing _ opened => (value depth opened).map .enclosing
  | .scalar tag text =>
    if tag.isCollection then misfit (depth + 1) else ranked depth (scalarValue tag text)
  | .sequence tag items =>
    match tag with
    | .seq => (values (depth + 1) items).map .list
    | .omap | .pairs => (pairs (depth + 1) items).map .list
    | .map | .set => misfit (depth + 1)
    | _ => misfit depth
  | .mapping tag entries =>
    match tag with
    | .map => (allEntries (depth + 1) entries).map fun set => .mapping (Datum.lastOfEach set)
    | .set => (allEntries (depth + 1) entries).map fun set =>
      .set ((Datum.lastOfEach set).map (·.1))
    | .seq | .omap | .pairs => misfit (depth + 1)
    | _ => ranked depth (defaultValue tag entries)

def values (depth : Nat) : List Node → Ranked (List Datum)
  | [] => .ok []
  | node :: rest =>
    (Ranked.both (value depth node) (values depth rest)).map fun (d, ds) => d :: ds

/-- The pair that a mapping of one entry stands for. -/
def pair (depth : Nat) : Node → Ranked Datum
  | .mapping _ [(key, node)] =>
    (Ranked.both (value depth key) (value depth node)).map fun (k, v) => .pair k v
  | .enclosing _ opened => pair depth opened
  | _ => misfit depth

def pairs (depth : Nat) : List Node → Ranked (List Datum)
  | [] => .ok []
  | node :: rest => (Ranked.both (pair depth node) (pairs depth rest)).map fun (d, ds) => d :: ds

/-- The entries of a mapping, those merged into it first. What is to be merged is looked at before
any entry. -/
def allEntries (depth : Nat) (entries : List (Node × Node)) : Ranked (List (Datum × Datum)) :=
  if mergesMappings entries then
    Ranked.append (mergedEntries depth entries) (ownEntries depth entries)
  else misfit depth

def ownEntries (depth : Nat) : List (Node × Node) → Ranked (List (Datum × Datum))
  | [] => .ok []
  | (key, node) :: rest =>
    if key.tag = .merge then ownEntries depth rest
    else
      let entry := Ranked.both (keyValue depth key) (value depth node)
      (Ranked.both entry (ownEntries depth rest)).map fun (entry, more) => entry :: more

/-- The datum that a node stands for as a key. -/
def keyValue (depth : Nat) : Node → Ranked Datum
  | .scalar .value text => .ok (.text text)
  | .scalar tag text =>
    if tag.isCollection then misfit depth else ranked depth (scalarValue tag text)
  | .mapping tag entries =>
    if tag.isCollection then misfit depth else ranked depth (defaultValue tag entries)
  | .sequence _ _ | .enclosing _ _ => misfit depth

def mergedEntries (depth : Nat) : List (Node × Node) → Ranked (List (Datum × Datum))
  | [] => .ok []
  | (key, node) :: rest =>
    if key.tag = .merge then
      Ranked.append (sourceEntries depth node) (mergedEntries depth rest)
    else mergedEntries depth rest

/-- The entries of a mapping, or of all mappings of a sequence, that is merged. Of two mappings in
a sequence the earlier one wins, so its entries come later. -/
def sourceEntries (depth : Nat) : Node → Ranked (List (Datum × Datum))
  | .mapping _ entries =>
    Ranked.append (mergedEntries depth entries) (ownEntries depth entries)
  | .sequence _ nodes => sequenceEntries depth nodes
  | .enclosing _ opened => sourceEntries depth opened
  | .scalar _ _ => misfit depth

def sequenceEntries (depth : Nat) : List Node → Ranked (List (Datum × Datum))
  | [] => .ok []
  | node :: rest => Ranked.append (sequenceEntries depth rest) (sourceEntries depth node)

end

/-- The datum that the root of a document stands for. -/
def toDatum (node : Node) : Except Fault Datum := (value 0 node).mapError (·.2)

end Node

def read [Host] (t : Text) : Except Fault Datum := do
  if !Host.holds t then throw .tooDeep
  let (tokens, ending) := Token.ofText t.normalizeBreaks
  match ← Node.ofTokens tokens ending with
  | none => return .null
  | some root => root.toDatum

end ConversionCoverage.Yaml
