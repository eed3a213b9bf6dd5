import BuildDialect.Detection

/-!
Questions about build files. A dispatcher decides anew for each question which parser the file
belongs to, and passes the question on unchanged; what comes back, it passes back unchanged.
-/
namespace BuildDialect

/-- A question to a delegate. One that is answered adds the size of the file to the counter. -/
def Delegate.ask (delegate : Delegate) (query : Query) (path : Path) (counter : Option String) :
    Action (List Rule) := do
  Action.emit (.called (.query delegate.name query path counter))
  let w ← get
  match w.script w.trace delegate.number (.query query) with
  | some fault => throw fault
  | none =>
    match counter with
    | none => pure ()
    | some name =>
      let content ← Action.ask path FileTree.read
      let _ ← Action.count name content.length
    match query with
    | .rules => return delegate.rules
    | .rulesAndMeta => return delegate.rules ++ delegate.metaRules

def Registry.choose {α : Type} (registry : List (Dialect × α)) (default : Dialect) (path : Path) :
    Action α := do
  let dialect ← selectDialect path default
  match registry.lookup dialect with
  | none => throw (.unregistered dialect)
  | some entry =>
    Action.log .debug .dispatch (s!"Selected syntax {dialect.name} for " ++ path.text)
    return entry

namespace Parser

mutual

def ask (query : Query) (path : Path) (counter : Option String) : Parser → Action (List Rule)
  | .delegate d => d.ask query path counter
  | .dispatcher d registry => do
    let entry ← Registry.choose (askEach query path counter registry) d.default path
    entry

def askEach (query : Query) (path : Path) (counter : Option String) :
    List (Dialect × Parser) → List (Dialect × Action (List Rule))
  | [] => []
  | (dialect, parser) :: rest =>
    (dialect, parser.ask query path counter) :: askEach query path counter rest

end

/-- The parser that a dispatcher hands a build file to. A delegate has nobody to hand it to. -/
def forBuildFile (parser : Parser) (path : Path) : Action Parser :=
  match parser with
  | .delegate d => throw (.unnamed d.name)
  | .dispatcher d registry => Registry.choose registry d.default path

end Parser
end BuildDialect
