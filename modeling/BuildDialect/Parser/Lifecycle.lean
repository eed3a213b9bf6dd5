import BuildDialect.World

/-!
Operations on parsers as a whole. A dispatcher visits its parsers in the order of registration.
An ordinary fault does not keep it from the others: all of them are reported together at the end.
An interrupt ends the visits at once. A parser counts as closed when its close has returned or
failed in the ordinary way, and is not closed again.
-/
namespace BuildDialect

def Delegate.perform (delegate : Delegate) (operation : Lifecycle) : Action Unit := do
  Action.emit (.called (.lifecycle delegate.name operation))
  let w ← get
  match w.script w.trace delegate.number (.lifecycle operation) with
  | some fault => throw fault
  | none => pure ()

structure Errand where
  dialect : Dialect
  parser : Parser
  action : Action Unit

/-- What an errand ends with, as a value. The visit goes into the trace. -/
def Errand.attempt (errand : Errand) (visitor : Visitor) (operation : Lifecycle) :
    Action (Except Fault Unit) := do
  let result ← errand.action.attempt
  let fault := match result with
    | .ok () => none
    | .error fault => some fault
  Action.emit (.visited ⟨visitor, operation, errand.dialect, errand.parser, fault⟩)
  return result

namespace Dispatcher

def markClosed (number : Nat) (dialect : Dialect) : Action Unit :=
  modify fun w => { w with
    closed := fun n =>
      if n = number && !(w.closed n).contains dialect then w.closed n ++ [dialect]
      else w.closed n }

/-- Visits parsers in order and gives the ordinary faults of the visits. A visit that ends with an
interrupt is the last one; every other counts as done, if that is to be remembered. -/
def visit (number : Nat) (operation : Lifecycle) (remember : Bool) :
    List Errand → Action (List (Dialect × Fault))
  | [] => pure []
  | errand :: rest => do
    let dialect := errand.dialect
    match ← errand.attempt (.dispatcher number) operation with
    | .ok () =>
      if remember then markClosed number dialect
      visit number operation remember rest
    | .error fault =>
      if fault.isInterrupt then throw fault
      Action.log .warning .dispatch
        (s!"{operation.name}() failed for {dialect.name} parser: " ++ fault.message)
      if remember then markClosed number dialect
      return (dialect, fault) :: (← visit number operation remember rest)

def fanOut (number : Nat) (operation : Lifecycle) (remember : Bool) (errands : List Errand) :
    Action Unit := do
  match ← visit number operation remember errands with
  | [] => pure ()
  | failures => throw (.lifecycle operation.name failures true)

/-- An operation on a dispatcher, given what it comes to on its parsers. Only a close passes over
what is done already. -/
def perform (dispatcher : Dispatcher) (operation : Lifecycle) (errands : List Errand) :
    Action Unit := do
  match operation with
  | .reportProfile => fanOut dispatcher.number .reportProfile false errands
  | .close =>
    let closed := (← get).closed dispatcher.number
    let pending := errands.filter fun errand => !closed.contains errand.dialect
    if pending.isEmpty then
      Action.log .debug .dispatch "close() called on an already closed hybrid parser"
    else fanOut dispatcher.number .close true pending

end Dispatcher

namespace Parser

mutual

def perform (operation : Lifecycle) : Parser → Action Unit
  | .delegate d => d.perform operation
  | .dispatcher d registry => d.perform operation (performEach operation registry)

def performEach (operation : Lifecycle) : List (Dialect × Parser) → List Errand
  | [] => []
  | (dialect, parser) :: rest =>
    ⟨dialect, parser, parser.perform operation⟩ :: performEach operation rest

end

/-- How a block over a parser is left. The parser has been closed by then: a fault of that close
comes before the one that ended the block. -/
def leave (ended : Option Fault) (close : Except Fault Unit) : Option Fault :=
  match close with
  | .ok () => ended
  | .error fault => some fault

end Parser
end BuildDialect
