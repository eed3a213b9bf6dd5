/-! The operations of parsers: two questions about a build file, and two that concern the parser
itself. -/
namespace BuildDialect

inductive Query where
  /-- The build rules. -/
  | rules
  /-- The build rules and the meta rules. -/
  | rulesAndMeta
  deriving DecidableEq, Repr

inductive Lifecycle where
  | close
  | reportProfile
  deriving DecidableEq, Repr

def Query.name : Query → String
  | .rules => "get_all"
  | .rulesAndMeta => "get_all_rules_and_meta_rules"

def Lifecycle.name : Lifecycle → String
  | .close => "close"
  | .reportProfile => "report_profile"

inductive Operation where
  | query (q : Query)
  | lifecycle (l : Lifecycle)
  deriving DecidableEq, Repr

end BuildDialect
