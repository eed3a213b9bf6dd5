import BuildDialect.Yaml.Implicit
import BuildDialect.Yaml.Token

/-!
The document that tokens make up. Tokens are looked at no earlier than needed, so that of several
faults the one that comes first in the text is found. Collections nest only so deep.
-/
namespace BuildDialect.Yaml

structure Composer where
  tokens : List Token
  /-- How many tokens were passed. -/
  passed : Nat
  /-- The fault at which the tokens stop. -/
  fault : Option Fault
  /-- What the handles of tags stand for. -/
  handles : List (String × String)
  /-- The anchors that were met, and the nodes that are complete. -/
  names : List String
  anchors : List (String × Node)

abbrev Compose := StateT Composer (Except Fault)

namespace Compose

/-- The handles that need no directive. -/
def commonHandles : List (String × String) :=
  [("!", "!"), ("!!", Tag.common)]

def peek : Compose Token := do
  match (← get).tokens with
  | token :: _ => return token
  | [] => throw ((← get).fault.getD .token)

def drop : Compose Unit :=
  modify fun s => { s with tokens := s.tokens.tail, passed := s.passed + 1 }

/-- Stops unless the tokens may go on in this way. -/
def expect (fits : Bool) : Compose Unit :=
  if fits then pure () else throw .grammar

def place : Compose Nat :=
  return (← get).passed

def blank : Node :=
  .scalar 0 .null []

def deepest : Nat := 487

def deeper : Nat → Compose Nat
  | 0 => throw .depth
  | room + 1 => return room

structure Properties where
  anchor : Option String
  /-- The tag in full. -/
  tag : Option String

def fullTag (handle : Option String) (suffix : String) : Compose String := do
  match handle with
  | none => return suffix
  | some handle =>
    match (← get).handles.lookup handle with
    | some stem => return stem ++ suffix
    | none => throw .grammar

def anchor? : Compose (Option String) := do
  match ← peek with
  | .anchor name => drop; return some name
  | _ => return none

def tag? : Compose (Option (Option String × String)) := do
  match ← peek with
  | .tag handle suffix => drop; return some (handle, suffix)
  | _ => return none

def properties : Compose Properties := do
  let (anchor, tag) ←
    match ← anchor? with
    | some name => do pure (some name, ← tag?)
    | none =>
      match ← tag? with
      | some tag => do pure (← anchor?, some tag)
      | none => pure (none, none)
  match tag with
  | none => return ⟨anchor, none⟩
  | some (handle, suffix) => return ⟨anchor, some (← fullTag handle suffix)⟩

/-- The tag of a collection. A single exclamation mark is no tag. -/
def Properties.collectionTag (p : Properties) (default : Tag) : Tag :=
  match p.tag with
  | none => default
  | some text => if text == "!" then default else .ofText text

/-- The tag of a scalar. Only one without a tag, or with a single exclamation mark, has the type
that its text suggests; a quoted one needs the mark for that. -/
def Properties.scalarTag (p : Properties) (plain : Bool) (text : RawText) : Tag :=
  match p.tag with
  | none => if plain then Implicit.tagOf text else .text
  | some tag => if tag == "!" then Implicit.tagOf text else .ofText tag

/-- Notes the anchor of a node that starts. An anchor is given once. -/
def begin (p : Properties) : Compose Unit := do
  match p.anchor with
  | none => pure ()
  | some name =>
    if (← get).names.contains name then throw .reference
    modify fun s => { s with names := name :: s.names }

def complete (p : Properties) (node : Node) : Compose Node := do
  match p.anchor with
  | none => pure ()
  | some name => modify fun s => { s with anchors := (name, node) :: s.anchors }
  return node

/-- A node of which there is nothing but its properties. -/
def bare (here : Nat) (p : Properties) : Compose Node := do
  expect (p.anchor.isSome || p.tag.isSome)
  begin p
  complete p (.scalar here (p.scalarTag true []) [])

/-- Tokens that cannot start a node in a block mapping. -/
def closesBlockPart : Token → Bool
  | .key | .value | .blockEnd => true
  | _ => false

def closesFlowPart (closing : Token) (token : Token) : Bool :=
  token == .flowEntry || token == closing

mutual

/-- A node, with room for so many collections in each other. Blocks are only read where they may
start, and lists without indentation only as the keys and values of block mappings. -/
def node (inBlock inMapping : Bool) (room : Nat) : Nat → Compose Node
  | 0 => throw .grammar
  | fuel + 1 => do
    match ← peek with
    | .alias name =>
      drop
      if !(← get).names.contains name then throw .reference
      return .alias name
    | _ =>
      let here ← place
      let p ← properties
      match ← peek with
      | .blockEntry =>
        if inMapping then
          begin p
          let items ← levelItems (← deeper room) fuel
          complete p (.sequence here (p.collectionTag .sequence) items)
        else bare here p
      | .scalar text plain =>
        drop
        begin p
        complete p (.scalar here (p.scalarTag plain text) text)
      | .flowSequenceStart =>
        begin p
        drop
        let items ← flowItems true (← deeper room) fuel
        complete p (.sequence here (p.collectionTag .sequence) items)
      | .flowMappingStart =>
        begin p
        drop
        let pairs ← flowPairs true (← deeper room) fuel
        complete p (.mapping here (p.collectionTag .mapping) pairs)
      | .blockSequenceStart =>
        if inBlock then
          begin p
          drop
          let items ← blockItems (← deeper room) fuel
          complete p (.sequence here (p.collectionTag .sequence) items)
        else bare here p
      | .blockMappingStart =>
        if inBlock then
          begin p
          drop
          let pairs ← blockPairs (← deeper room) fuel
          complete p (.mapping here (p.collectionTag .mapping) pairs)
        else bare here p
      | _ => bare here p
termination_by structural fuel => fuel

def blockItems (room : Nat) : Nat → Compose (List Node)
  | 0 => throw .grammar
  | fuel + 1 => do
    match ← peek with
    | .blockEntry =>
      drop
      let next ← peek
      let item ← if next == .blockEntry || next == .blockEnd then pure blank
        else node true false room fuel
      return item :: (← blockItems room fuel)
    | token =>
      expect (token == .blockEnd)
      drop
      return []
termination_by structural fuel => fuel

/-- The items of a block sequence that is not indented. It ends where the mapping goes on. -/
def levelItems (room : Nat) : Nat → Compose (List Node)
  | 0 => throw .grammar
  | fuel + 1 => do
    match ← peek with
    | .blockEntry =>
      drop
      let next ← peek
      let item ← if next == .blockEntry || closesBlockPart next then pure blank
        else node true false room fuel
      return item :: (← levelItems room fuel)
    | _ => return []
termination_by structural fuel => fuel

def blockPairs (room : Nat) : Nat → Compose (List (Node × Node))
  | 0 => throw .grammar
  | fuel + 1 => do
    match ← peek with
    | .key =>
      drop
      let key ← if closesBlockPart (← peek) then pure blank else node true true room fuel
      let value ← if (← peek) == .value then do
          drop
          if closesBlockPart (← peek) then pure blank else node true true room fuel
        else pure blank
      return (key, value) :: (← blockPairs room fuel)
    | token =>
      expect (token == .blockEnd)
      drop
      return []
termination_by structural fuel => fuel

def flowValue (closing : Token) (room : Nat) : Nat → Compose Node
  | 0 => throw .grammar
  | fuel + 1 => do
    if (← peek) == .value then
      drop
      if closesFlowPart closing (← peek) then return blank else node false false room fuel
    else return blank
termination_by structural fuel => fuel

def flowPair (closing : Token) (room : Nat) : Nat → Compose (Node × Node)
  | 0 => throw .grammar
  | fuel + 1 => do
    let next ← peek
    let key ← if next == .value || closesFlowPart closing next then pure blank
      else node false false room fuel
    return (key, ← flowValue closing room fuel)
termination_by structural fuel => fuel

/-- The items of a sequence in brackets. A pair among them is a mapping of its own. -/
def flowItems (first : Bool) (room : Nat) : Nat → Compose (List Node)
  | 0 => throw .grammar
  | fuel + 1 => do
    if (← peek) == .flowSequenceEnd then
      drop
      return []
    if !first then
      expect ((← peek) == .flowEntry)
      drop
    match ← peek with
    | .flowSequenceEnd =>
      drop
      return []
    | .key =>
      let here ← place
      drop
      let pair ← flowPair .flowSequenceEnd (← deeper room) fuel
      return .mapping here .mapping [pair] :: (← flowItems false room fuel)
    | _ =>
      let item ← node false false room fuel
      return item :: (← flowItems false room fuel)
termination_by structural fuel => fuel

/-- The pairs of a mapping in brackets. A node without an indicator is a key without a value. -/
def flowPairs (first : Bool) (room : Nat) : Nat → Compose (List (Node × Node))
  | 0 => throw .grammar
  | fuel + 1 => do
    if (← peek) == .flowMappingEnd then
      drop
      return []
    if !first then
      expect ((← peek) == .flowEntry)
      drop
    match ← peek with
    | .flowMappingEnd =>
      drop
      return []
    | .key =>
      drop
      let pair ← flowPair .flowMappingEnd room fuel
      return pair :: (← flowPairs false room fuel)
    | _ =>
      let key ← node false false room fuel
      return (key, blank) :: (← flowPairs false room fuel)
termination_by structural fuel => fuel

end

/-- The directives before a document. There is at most one version, of the first series, and one
meaning for each handle. -/
def directives (version : Bool) (handles : List (String × String)) :
    Nat → Compose (List (String × String))
  | 0 => throw .grammar
  | fuel + 1 => do
    match ← peek with
    | .directive directive =>
      drop
      match directive with
      | .version major _ =>
        expect (!version && major == 1)
        directives true handles fuel
      | .handle handle stem =>
        expect (handles.lookup handle).isNone
        directives version (handles ++ [(handle, stem)]) fuel
      | .other => directives version handles fuel
    | _ => return handles ++ commonHandles

/-- Whether a document with its own start line follows. What ends the document before it is passed
over. -/
def documentStart? : Nat → Compose Bool
  | 0 => throw .grammar
  | fuel + 1 => do
    match ← peek with
    | .documentEnd =>
      drop
      documentStart? fuel
    | .streamEnd => return false
    | _ =>
      let handles ← directives false [] fuel
      modify fun s => { s with handles }
      expect ((← peek) == .documentStart)
      drop
      return true

def content (fuel : Nat) : Compose Node := do
  match ← peek with
  | .directive _ | .documentStart | .documentEnd | .streamEnd => return blank
  | _ => node true false deepest fuel

def root? (fuel : Nat) : Compose (Option Node) := do
  let explicit := match ← peek with
    | .directive _ | .documentStart | .streamEnd => true
    | _ => false
  let found ←
    if explicit then do
      if ← documentStart? fuel then pure (some (← content fuel)) else pure none
    else pure (some (← node true false deepest fuel))
  match found with
  | none => return none
  | some root =>
    if (← peek) == .documentEnd then drop
    if ← documentStart? fuel then throw .reference
    return some root

end Compose

/-- The document that tokens make up, if there is any. Each token is passed in at most a few
steps, and each collection has a token of its own. -/
def Document.ofTokens (t : Tokens) : Except Fault (Option Document) := do
  let fuel := 4 * (t.tokens.length + 4)
  let (root, s) ← Compose.root? fuel ⟨t.tokens, 0, t.fault, Compose.commonHandles, [], []⟩
  return root.map fun root => ⟨root, s.anchors, t.tokens.length⟩

end BuildDialect.Yaml
