import BuildDialect.Text.CodePoint

/-! The nodes of a YAML document. -/
namespace BuildDialect.Yaml

inductive Tag where
  | null | truth | integer | real | binary | moment | text
  | sequence | mapping | set | orderedMapping | pairs
  /-- The key whose value is merged into the mapping. -/
  | merge
  /-- The key whose value stands for the mapping where a scalar is wanted. -/
  | value
  | foreign (name : String)
  deriving DecidableEq, Repr

namespace Tag

/-- What the tags of the common types start with. -/
def common : String := "tag:yaml.org,2002:"

def names : List (String × Tag) :=
  [("null", .null), ("bool", .truth), ("int", .integer), ("float", .real), ("binary", .binary),
    ("timestamp", .moment), ("str", .text), ("seq", .sequence), ("map", .mapping), ("set", .set),
    ("omap", .orderedMapping), ("pairs", .pairs), ("merge", .merge), ("value", .value)]

def ofText (text : String) : Tag :=
  match names.find? fun entry => common ++ entry.1 == text with
  | some (_, tag) => tag
  | none => .foreign text

def isScalar : Tag → Bool
  | .null | .truth | .integer | .real | .binary | .moment | .text => true
  | _ => false

def isCollection : Tag → Bool
  | .sequence | .mapping | .set | .orderedMapping | .pairs => true
  | _ => false

end Tag

/-- A node. The place of a node with any text tells it from every other one of the document; an
alias stands for the node with that anchor, which may be one that contains it. -/
inductive Node where
  | scalar (place : Nat) (tag : Tag) (text : RawText)
  | sequence (place : Nat) (tag : Tag) (items : List Node)
  | mapping (place : Nat) (tag : Tag) (pairs : List (Node × Node))
  | alias (anchor : String)
  deriving Repr

def Node.tag : Node → Tag
  | .scalar _ tag _ | .sequence _ tag _ | .mapping _ tag _ => tag
  | .alias anchor => .foreign anchor

def Node.place : Node → Nat
  | .scalar place _ _ | .sequence place _ _ | .mapping place _ _ => place
  | .alias _ => 0

/-- A document: its outermost node, the nodes with anchors, and a number that the number of its
nodes with any text does not exceed. -/
structure Document where
  root : Node
  anchors : List (String × Node)
  bound : Nat
  deriving Repr

def Document.target (document : Document) (node : Node) : Node :=
  match node with
  | .alias anchor => (document.anchors.lookup anchor).getD node
  | _ => node

end BuildDialect.Yaml
