import ConversionCoverage.Yaml.Tag
import ConversionCoverage.Yaml.Token

/-!
# Nodes of a YAML document

The second reading turns tokens into a tree of nodes. An alias stands for the node with its anchor.
Inside that node itself it stands for a reference back, which shows the node again as often as a
record can look at it. A stream holds at most one document.
-/

namespace ConversionCoverage.Yaml

inductive Node where
  | scalar (tag : Tag) (text : Text)
  | sequence (tag : Tag) (items : List Node)
  | mapping (tag : Tag) (entries : List (Node × Node))
  /-- A sequence or a mapping with an anchor inside itself, with what it holds down to some depth. -/
  | enclosing (anchor : Text) (opened : Node)

namespace Node

/-- The node of a scalar that is not written. -/
def empty : Node := .scalar .null []

instance : Inhabited Node := ⟨empty⟩

def tag : Node → Tag
  | .scalar tag _ => tag
  | .sequence tag _ => tag
  | .mapping tag _ => tag
  | .enclosing _ opened => opened.tag

def isSequence : Node → Bool
  | .sequence _ _ => true
  | .enclosing _ opened => opened.isSequence
  | _ => false

/-! ## References back -/

mutual

/-- Whether a node refers back to one with the given anchor. -/
def refersTo (anchor : Text) : Node → Bool
  | .scalar _ _ => false
  | .sequence _ items => itemsReferTo anchor items
  | .mapping _ entries => entriesReferTo anchor entries
  | .enclosing name opened => name = anchor || refersTo anchor opened

def itemsReferTo (anchor : Text) : List Node → Bool
  | [] => false
  | node :: rest => refersTo anchor node || itemsReferTo anchor rest

def entriesReferTo (anchor : Text) : List (Node × Node) → Bool
  | [] => false
  | (key, node) :: rest =>
    refersTo anchor key || refersTo anchor node || entriesReferTo anchor rest

end

mutual

/-- The node with `target` for all references back to an anchor. -/
def refer (anchor : Text) (target : Node) : Node → Node
  | .scalar tag text => .scalar tag text
  | .sequence tag items => .sequence tag (referItems anchor target items)
  | .mapping tag entries => .mapping tag (referEntries anchor target entries)
  | .enclosing name opened =>
    if name = anchor then .enclosing name target else .enclosing name (refer anchor target opened)

def referItems (anchor : Text) (target : Node) : List Node → List Node
  | [] => []
  | node :: rest => refer anchor target node :: referItems anchor target rest

def referEntries (anchor : Text) (target : Node) : List (Node × Node) → List (Node × Node)
  | [] => []
  | (key, node) :: rest =>
    (refer anchor target key, refer anchor target node) :: referEntries anchor target rest

end

/-- A node whose references back to itself show it again for some rounds. -/
def unrolled (anchor : Text) (node : Node) : (rounds : Nat) → Node
  | 0 => node
  | rounds + 1 => refer anchor (unrolled anchor node rounds) node

/-- The rounds for which a node inside itself is shown again. On the way from a record to a severity
there are four collections inside others. -/
def maxRounds : Nat := 4

/-- The tokens to come, the fault at their end, the nodes with an anchor, and what the handles of
tags stand for. -/
structure Feed where
  tokens : List Token
  ending : Option Fault
  anchors : List (Text × Node)
  handles : List (Text × Text)

/-- The handles that need no directive. -/
def defaultHandles : List (Text × Text) := [("!", "!"), ("!!", Tag.namespaceText)]

namespace Feed

def peek (f : Feed) : Except Fault (Option Token) :=
  match f.tokens, f.ending with
  | token :: _, _ => .ok (some token)
  | [], none => .ok none
  | [], some fault => .error fault

def drop (f : Feed) : Feed := { f with tokens := f.tokens.tail }

def sees (f : Feed) (tokens : List Token) : Except Fault Bool := do
  return (← f.peek).any tokens.contains

def setAnchor (f : Feed) (anchor : Option Text) (node : Node) : Feed :=
  match anchor with
  | none => f
  | some name => { f with anchors := (name, node) :: f.anchors.filter (·.1 ≠ name) }

/-- Lets an anchor stand for a collection that has been begun and looks like `node` so far. -/
def begin (f : Feed) (anchor : Option Text) (node : Node) : Feed :=
  f.setAnchor anchor (.enclosing (anchor.getD []) node)

/-- The node that an anchor stands for from now on. If it refers back to itself, then it takes the
place of these references everywhere. -/
def finish (f : Feed) (anchor : Option Text) (node : Node) : Node × Feed :=
  match anchor with
  | none => (node, f)
  | some name =>
    if node.refersTo name then
      let whole := node.unrolled name maxRounds
      let anchors := f.anchors.map fun (other, inner) => (other, inner.refer name whole)
      (whole, { f with anchors := anchors }.setAnchor anchor whole)
    else (node, f.setAnchor anchor node)

end Feed

/-- An anchor and a tag before a node, in either order. -/
def properties (f : Feed) :
    Except Fault (Option Text × Option (Option Text × Text) × Feed) := do
  match ← f.peek with
  | some (.anchor name) =>
    let f := f.drop
    match ← f.peek with
    | some (.tag handle suffix) => return (some name, some (handle, suffix), f.drop)
    | _ => return (some name, none, f)
  | some (.tag handle suffix) =>
    let f := f.drop
    match ← f.peek with
    | some (.anchor name) => return (some name, some (handle, suffix), f.drop)
    | _ => return (none, some (handle, suffix), f)
  | _ => return (none, none, f)

/-- The full text of a tag. -/
def tagText (f : Feed) : Option (Option Text × Text) → Except Fault (Option Text)
  | none => .ok none
  | some (none, suffix) => .ok (some suffix)
  | some (some handle, suffix) =>
    match f.handles.lookup handle with
    | some target => .ok (some (target ++ suffix))
    | none => .error .malformed

/-- The tag of a scalar: the written one, or one found from the text of a plain scalar. The tag
`!` lets any scalar count as plain. -/
def scalarTag (tag : Option Text) (text : Text) (isPlain : Bool) : Tag :=
  match tag with
  | none => if isPlain then Tag.ofPlain text else .str
  | some tag => if tag = "!" then Tag.ofPlain text else Tag.ofText tag

/-- The tag of a collection. -/
def collectionTag (tag : Option Text) (default : Tag) : Tag :=
  match tag with
  | none => default
  | some tag => if tag = "!" then default else Tag.ofText tag

mutual

/-- The node at the head of the tokens. Block collections are taken only if `block` holds, and a
sequence without indentation only if `bare` holds. -/
def parse : (fuel : Nat) → (block bare : Bool) → Feed → Except Fault (Node × Feed)
  | 0, _, _, _ => .error .malformed
  | fuel + 1, block, bare, f => do
    if let some (.alias name) ← f.peek then
      match f.anchors.lookup name with
      | some node => return (node, f.drop)
      | none => throw .malformed
    let (anchor, written, f) ← properties f
    let tag ← tagText f written
    let next ← f.peek
    if let some name := anchor then
      if (f.anchors.lookup name).isSome then throw .malformed
    let sequence (items : Except Fault (List Node × Feed)) : Except Fault (Node × Feed) := do
      let (items, f) ← items
      return f.finish anchor (.sequence (collectionTag tag .seq) items)
    let mapping (entries : Except Fault (List (Node × Node) × Feed)) :
        Except Fault (Node × Feed) := do
      let (entries, f) ← entries
      return f.finish anchor (.mapping (collectionTag tag .map) entries)
    let inSequence := f.begin anchor (.sequence .seq [])
    let inMapping := f.begin anchor (.mapping .map [])
    if bare ∧ next = some .blockEntry then sequence (parseBareItems fuel inSequence)
    else match next with
      | some (.scalar text isPlain) =>
        let node := .scalar (scalarTag tag text isPlain) text
        return (node, f.drop.setAnchor anchor node)
      | some .flowSequenceStart => sequence (parseFlowItems fuel true inSequence.drop)
      | some .flowMappingStart => mapping (parseFlowEntries fuel true inMapping.drop)
      | _ =>
        if block ∧ next = some .blockSequenceStart then
          sequence (parseBlockItems fuel inSequence.drop)
        else if block ∧ next = some .blockMappingStart then
          mapping (parseBlockEntries fuel inMapping.drop)
        else if anchor.isSome ∨ tag.isSome then
          let node := .scalar (scalarTag tag [] true) []
          return (node, f.setAnchor anchor node)
        else throw .malformed

/-- A node, or the empty node if one of the given tokens comes next. -/
def parseUnless : (fuel : Nat) → (block bare : Bool) → List Token → Feed →
    Except Fault (Node × Feed)
  | 0, _, _, _, _ => .error .malformed
  | fuel + 1, block, bare, tokens, f => do
    if ← f.sees tokens then return (empty, f) else parse fuel block bare f

/-- The items of a block sequence up to its end. -/
def parseBlockItems : (fuel : Nat) → Feed → Except Fault (List Node × Feed)
  | 0, _ => .error .malformed
  | fuel + 1, f => do
    match ← f.peek with
    | some .blockEntry =>
      let (item, f) ← parseUnless fuel true false [.blockEntry, .blockEnd] f.drop
      let (items, f) ← parseBlockItems fuel f
      return (item :: items, f)
    | some .blockEnd => return ([], f.drop)
    | _ => throw .malformed

/-- The items of a sequence without indentation. -/
def parseBareItems : (fuel : Nat) → Feed → Except Fault (List Node × Feed)
  | 0, _ => .error .malformed
  | fuel + 1, f => do
    match ← f.peek with
    | some .blockEntry =>
      let (item, f) ←
        parseUnless fuel true false [.blockEntry, .key, .value, .blockEnd] f.drop
      let (items, f) ← parseBareItems fuel f
      return (item :: items, f)
    | _ => return ([], f)

/-- The value after a key, or the empty node if there is none. `closing` are the tokens before
which a value is empty. -/
def parseValue : (fuel : Nat) → (block : Bool) → (closing : List Token) → Feed →
    Except Fault (Node × Feed)
  | 0, _, _, _ => .error .malformed
  | fuel + 1, block, closing, f => do
    match ← f.peek with
    | some .value => parseUnless fuel block block closing f.drop
    | _ => return (empty, f)

/-- The entries of a block mapping up to its end. -/
def parseBlockEntries : (fuel : Nat) → Feed → Except Fault (List (Node × Node) × Feed)
  | 0, _ => .error .malformed
  | fuel + 1, f => do
    match ← f.peek with
    | some .key =>
      let (key, f) ← parseUnless fuel true true [.key, .value, .blockEnd] f.drop
      let (value, f) ← parseValue fuel true [.key, .value, .blockEnd] f
      let (entries, f) ← parseBlockEntries fuel f
      return ((key, value) :: entries, f)
    | some .blockEnd => return ([], f.drop)
    | _ => throw .malformed

/-- The items of a flow sequence up to its end. A key among them makes a mapping of one entry. -/
def parseFlowItems : (fuel : Nat) → (first : Bool) → Feed → Except Fault (List Node × Feed)
  | 0, _, _ => .error .malformed
  | fuel + 1, first, f => do
    if (← f.peek) = some .flowSequenceEnd then return ([], f.drop)
    if first = false ∧ (← f.peek) ≠ some .flowEntry then throw .malformed
    let f := if first then f else f.drop
    match ← f.peek with
    | some .key =>
      let (key, f) ←
        parseUnless fuel false false [.value, .flowEntry, .flowSequenceEnd] f.drop
      let (value, f) ← parseValue fuel false [.flowEntry, .flowSequenceEnd] f
      let (items, f) ← parseFlowItems fuel false f
      return (.mapping .map [(key, value)] :: items, f)
    | some .flowSequenceEnd => return ([], f.drop)
    | _ =>
      let (item, f) ← parse fuel false false f
      let (items, f) ← parseFlowItems fuel false f
      return (item :: items, f)

/-- The entries of a flow mapping up to its end. -/
def parseFlowEntries : (fuel : Nat) → (first : Bool) → Feed →
    Except Fault (List (Node × Node) × Feed)
  | 0, _, _ => .error .malformed
  | fuel + 1, first, f => do
    if (← f.peek) = some .flowMappingEnd then return ([], f.drop)
    if first = false ∧ (← f.peek) ≠ some .flowEntry then throw .malformed
    let f := if first then f else f.drop
    match ← f.peek with
    | some .key =>
      let (key, f) ←
        parseUnless fuel false false [.value, .flowEntry, .flowMappingEnd] f.drop
      let (value, f) ← parseValue fuel false [.flowEntry, .flowMappingEnd] f
      let (entries, f) ← parseFlowEntries fuel false f
      return ((key, value) :: entries, f)
    | some .flowMappingEnd => return ([], f.drop)
    | _ =>
      let (key, f) ← parse fuel false false f
      let (entries, f) ← parseFlowEntries fuel false f
      return ((key, empty) :: entries, f)

end

/-- The handles that the directives at the head of a document define. The version of the format
may be given once and has to start with 1. -/
def directives : (tokens : List Token) → (versioned : Bool) → (handles : List (Text × Text)) →
    Except Fault (List Token × List (Text × Text))
  | .directive (.version major _) :: rest, versioned, handles =>
    if versioned ∨ major ≠ 1 then .error .malformed else directives rest true handles
  | .directive (.tagHandle handle target) :: rest, versioned, handles =>
    if (handles.lookup handle).isSome then .error .malformed
    else directives rest versioned ((handle, target) :: handles)
  | .directive .other :: rest, versioned, handles => directives rest versioned handles
  | tokens, _, handles => .ok (tokens, handles ++ defaultHandles)

/-- Whether a token at the head of a document with directives leaves it empty. -/
def closesDocument : Token → Bool
  | .directive _ | .documentStart | .documentEnd => true
  | _ => false

/-- The root of the first document, if there is one. -/
def firstDocument (fuel : Nat) (f : Feed) : Except Fault (Option (Node × Feed)) := do
  match ← f.peek with
  | none => return none
  | some (.directive _) | some .documentStart =>
    let (tokens, handles) ← directives f.tokens false []
    let f : Feed := { f with tokens, handles }
    match ← f.peek with
    | some .documentStart =>
      let f := f.drop
      if (← f.peek).all closesDocument then return some (empty, f)
      else return some (← parse fuel true false f)
    | _ => throw .malformed
  | _ => return some (← parse fuel true false f)

/-- The root of the only document of a stream, if there is one. Each step of the parser takes a
token or goes one level down, and at most three steps in a row take none. -/
def ofTokens (tokens : List Token) (ending : Option Fault) : Except Fault (Option Node) := do
  match ← firstDocument (4 * tokens.length + 4) ⟨tokens, ending, [], defaultHandles⟩ with
  | none => return none
  | some (root, f) =>
    let f : Feed := { f with tokens := f.tokens.dropWhile (· = .documentEnd) }
    match ← f.peek with
    | none => return some root
    | some _ => throw .malformed

end Node

end ConversionCoverage.Yaml
