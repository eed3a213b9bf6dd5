import BuildDialect.Yaml.Fault

/-! The tokens of a YAML text. -/
namespace BuildDialect.Yaml

inductive Directive where
  | version (major minor : Nat)
  /-- What a handle stands for in the tags of the document. -/
  | handle (handle stem : String)
  | other
  deriving DecidableEq, Repr

/-- A token. Where blocks begin and end follows from indentation. -/
inductive Token where
  | streamEnd
  | directive (directive : Directive)
  | documentStart
  | documentEnd
  | blockSequenceStart
  | blockMappingStart
  | blockEnd
  | flowSequenceStart
  | flowSequenceEnd
  | flowMappingStart
  | flowMappingEnd
  | blockEntry
  | flowEntry
  | key
  | value
  | alias (anchor : String)
  | anchor (anchor : String)
  | tag (handle : Option String) (suffix : String)
  /-- A scalar. A plain one has no quotes and no block indicator. -/
  | scalar (text : RawText) (plain : Bool)
  deriving DecidableEq, Repr

/-- The tokens of a text, up to its end or to the fault at which they stop. -/
structure Tokens where
  tokens : List Token
  fault : Option Fault
  deriving DecidableEq, Repr

end BuildDialect.Yaml
