import BuildDialect.Files.Tree
import BuildDialect.Naming
import BuildDialect.Process
import BuildDialect.Trace

/-! The state in which operations run, and what can be done in it. -/
namespace BuildDialect

/-- How delegates answer: in the light of all that has happened, the delegate of a number ends an
operation with a fault or without. -/
abbrev Script := Trace → Nat → Operation → Option Fault

/-- Everything that outlives a single operation. -/
structure World where
  files : FileTree
  counters : Naming Int
  /-- The dialects whose parsers a dispatcher has closed, by the number of the dispatcher. -/
  closed : Nat → List Dialect
  script : Script
  trace : Trace

def World.fresh : World where
  files := .fresh
  counters := .empty
  closed := fun _ => []
  script := fun _ _ _ => none
  trace := []

abbrev Action := Process World

namespace Action

def emit (event : Event) : Action Unit :=
  modify fun w => { w with trace := w.trace ++ [event] }

theorem outcome_emit (event : Event) (w : World) :
    (emit event).outcome w = (.ok (), { w with trace := w.trace ++ [event] }) := rfl

def log (level : Level) (source : Source) (message : RawText) : Action Unit :=
  emit (.logged ⟨level, source, message⟩)

def ask {α : Type} (path : Path) (query : FileTree → Path → Except FileCause α) : Action α := do
  match query (← get).files path with
  | .ok value => pure value
  | .error cause => throw (.file ⟨cause, path⟩)

def change (path : Path) (step : FileTree → Path → Except FileCause FileTree) : Action Unit := do
  let files ← ask path step
  modify fun w => { w with files }

def makeDirectories (path : PlainPath) : Action Unit := do
  let (result, files) := (← get).files.makeDirectories path
  modify fun w => { w with files }
  match result with
  | .ok () => pure ()
  | .error fault => throw (.file fault)

def count (counter : String) (delta : Int) : Action Int := do
  match (← get).counters counter with
  | none => throw (.unnamed counter)
  | some value =>
    let total := value + delta
    modify fun w => { w with counters := w.counters.assign counter total }
    pure total

end Action
end BuildDialect
