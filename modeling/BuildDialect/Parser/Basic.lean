import BuildDialect.Settings.Basic

/-!
Parsers. A delegate reads build files of one dialect; a dispatcher hands each build file to the
parser that is registered for its dialect, which may itself be a dispatcher. The shape of a parser
never changes; what a dispatcher has closed is kept in the world.
-/
namespace BuildDialect

/-- One rule of a build file, as its record is written. Dispatchers never look into it. -/
structure Rule where
  record : String
  deriving DecidableEq, Repr

structure Delegate where
  /-- Tells delegates apart, also where two of them have one name. -/
  number : Nat
  name : String
  /-- How the delegate describes itself in the log. -/
  description : String
  rules : List Rule
  metaRules : List Rule
  deriving DecidableEq, Repr

/-- What a dispatcher is, its registry apart. -/
structure Dispatcher where
  /-- Tells dispatchers apart. -/
  number : Nat
  name : String
  default : Dialect
  deriving DecidableEq, Repr

/-- A parser for build files. The registry of a dispatcher is in the order of registration. -/
inductive Parser where
  | delegate (delegate : Delegate)
  | dispatcher (dispatcher : Dispatcher) (registry : List (Dialect × Parser))
  deriving Repr

namespace Parser

def name : Parser → String
  | .delegate d => d.name
  | .dispatcher d _ => d.name

def dialects : Parser → List Dialect
  | .delegate _ => []
  | .dispatcher _ registry => registry.map Prod.fst

def description : Parser → String
  | .delegate d => d.description
  | .dispatcher d registry =>
    s!"HybridProjectBuildFileParser(syntaxes={Dialect.listing (registry.map Prod.fst)}, " ++
      s!"default_syntax={d.default.name})"

end Parser
end BuildDialect
