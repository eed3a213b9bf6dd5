import BuildDialect.Yaml.Composition
import BuildDialect.Yaml.Scalar

/-!
What the nodes of a document stand for. All of them are examined, level by level, before any value
is given: the first fault met in that order is the fault of the document. When a mapping is
examined, what it merges becomes part of it, and a value key of it becomes a text. Both hold from
then on wherever an alias stands for the node.
-/
namespace BuildDialect.Yaml

structure Examination where
  /-- The places of the value keys that became texts. -/
  texts : List Nat
  /-- The pairs of the mappings that merged others. -/
  merged : List (Nat × List (Node × Node))
  /-- The values of the mappings that were read as scalars. -/
  scalars : List (Nat × Value)
  /-- The places of the collections that were met, and those that are still to be examined, which
  come last first. -/
  met : List Nat
  later : List Node
  deriving Repr

abbrev Examine := StateT Examination (Except Fault)

namespace Examination

def start : Examination := ⟨[], [], [], [], []⟩

def tagOf (found : Examination) (document : Document) (node : Node) : Tag :=
  let node := document.target node
  if node.tag == .value && found.texts.contains node.place then .text else node.tag

def pairsAt (found : Examination) (place : Nat) (written : List (Node × Node)) :
    List (Node × Node) :=
  (found.merged.lookup place).getD written

/-- The text from which a node is read as a scalar. A mapping may name one under its value key. -/
def scalarText (found : Examination) (document : Document) : Nat → Node → Except Fault RawText
  | 0, _ => .error .depth
  | fuel + 1, node =>
    match document.target node with
    | .scalar _ _ text => .ok text
    | .mapping place _ pairs =>
      match (found.pairsAt place pairs).find? fun pair => found.tagOf document pair.1 == .value with
      | some (_, value) => scalarText found document fuel value
      | none => .error .construction
    | _ => .error .construction

end Examination

namespace Examine

def pairs (document : Document) (node : Node) : Examine (List (Node × Node)) := do
  match document.target node with
  | .mapping place _ written => return (← get).pairsAt place written
  | _ => throw .construction

def setPairs (document : Document) (node : Node) (pairs : List (Node × Node)) : Examine Unit :=
  modify fun found => { found with merged := ((document.target node).place, pairs) :: found.merged }

def settleKeys (document : Document) (node : Node) : Examine Unit := do
  let found ← get
  let keys := ((← pairs document node).map Prod.fst).filter fun key =>
    found.tagOf document key == .value
  set { found with texts := keys.map (fun key => (document.target key).place) ++ found.texts }

/-- Merges into a mapping what its merge keys name, in front of its own pairs. Of mappings in a list
the first one counts most, and comes last. A mapping whose merge is under way contributes what it
has by then. -/
def merge (document : Document) : Nat → Node → Examine Unit
  | 0, _ => throw .depth
  | fuel + 1, node => do
    let own ← pairs document node
    let found ← get
    match own.span fun pair : Node × Node => found.tagOf document pair.1 != .merge with
    | (_, []) => settleKeys document node
    | (before, (_, source) :: after) =>
      setPairs document node (before ++ after)
      let given ← match document.target source with
        | .sequence _ _ items => do
          let lists ← items.mapM fun item => do
            merge document fuel item
            pairs document item
          pure lists.reverse.flatten
        | _ => do
          merge document fuel source
          pairs document source
      merge document fuel node
      if !given.isEmpty then setPairs document node (given ++ (← pairs document node))

def deepestValue : Nat := 980

/-- Reads a node by itself. A collection is left for later. -/
def note (document : Document) (node : Node) : Examine Unit := do
  let found ← get
  let node := document.target node
  let tag := found.tagOf document node
  if tag.isCollection then
    if !found.met.contains node.place then
      set { found with met := node.place :: found.met, later := node :: found.later }
  else if !tag.isScalar then throw .construction
  else match node with
    | .scalar place _ text =>
      let _ ← Scalar.read place tag text
    | _ =>
      if (found.scalars.lookup node.place).isNone then
        let text ← found.scalarText document deepestValue node
        if tag == .moment then throw .stampMapping
        let value ← Scalar.read node.place tag text
        set { found with scalars := (node.place, value) :: found.scalars }

def noteKey (document : Document) (node : Node) : Examine Unit := do
  note document node
  if ((← get).tagOf document node).isCollection then throw .construction

def notePair (document : Document) (node : Node) : Examine Unit := do
  match ← pairs document node with
  | [(key, value)] =>
    note document key
    note document value
  | _ => throw .construction

def content (document : Document) (node : Node) : Examine Unit := do
  match (← get).tagOf document node, node with
  | .sequence, .sequence _ _ items => items.forM (note document)
  | .orderedMapping, .sequence _ _ items => items.forM (notePair document)
  | .pairs, .sequence _ _ items => items.forM (notePair document)
  | .mapping, .mapping .. => mappingContent
  | .set, .mapping .. => mappingContent
  | _, _ => throw .construction
where
  /-- Reads the pairs of a mapping, once everything is merged into it. -/
  mappingContent : Examine Unit := do
    merge document (2 * document.bound + 2) node
    for (key, value) in ← pairs document node do
      noteKey document key
      note document value

/-- Reads the contents of all collections, those first that were met first. -/
def levels (document : Document) : Nat → Examine Unit
  | 0 => pure ()
  | fuel + 1 => do
    match (← get).later with
    | [] => pure ()
    | later =>
      modify fun found => { found with later := [] }
      later.reverse.forM (content document)
      levels document fuel

end Examine

namespace Document

def examine (document : Document) : Except Fault Examination := do
  let examined : Examine Unit := do
    Examine.note document document.root
    Examine.levels document (document.bound + 1)
  let ((), found) ← examined.run .start
  return found

/-- The value of a node, down to a depth: what collections contain below it is left out. A node may
contain itself, so that no depth shows everything. -/
def value (document : Document) (found : Examination) (depth : Nat) (node : Node) : Value :=
  let node := document.target node
  match found.tagOf document node, node with
  | .sequence, .sequence _ _ items =>
    match depth with
    | 0 => .list []
    | depth + 1 => .list (items.map fun item => value document found depth item)
  | .orderedMapping, .sequence _ _ items => .list (pairList depth items)
  | .pairs, .sequence _ _ items => .list (pairList depth items)
  | .mapping, .mapping place _ written => .mapping (valuePairs depth (found.pairsAt place written))
  | .set, .mapping place _ written =>
    .set (Value.distinct ((valuePairs depth (found.pairsAt place written)).map Prod.fst))
  | tag, .scalar place _ text =>
    match Scalar.read place tag text with
    | .ok value => value
    | .error _ => .scalar .nothing
  | _, node => (found.scalars.lookup node.place).getD (.scalar .nothing)
where
  /-- The values of the pairs of a mapping. -/
  valuePairs (depth : Nat) (pairs : List (Node × Node)) : List (Value × Value) :=
    match depth with
    | 0 => []
    | depth + 1 => pairs.map fun pair =>
      (value document found depth pair.1, value document found depth pair.2)
  /-- The values of a list of single pairs. -/
  pairList (depth : Nat) (items : List Node) : List Value :=
    match depth with
    | 0 => []
    | depth + 1 => items.map fun item =>
      match document.target item with
      | .mapping place _ written =>
        match found.pairsAt place written with
        | [(key, other)] =>
          .tuple [value document found depth key, value document found depth other]
        | _ => .scalar .nothing
      | _ => .scalar .nothing

end Document
end BuildDialect.Yaml
