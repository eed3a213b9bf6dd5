import BuildDialect.Fault
import BuildDialect.Parser.Basic

/-!
What happens while operations run, in order. The calls that reach delegates and factories, the
records of the log and the visits to parsers are three views of one trace.
-/
namespace BuildDialect

inductive Level where
  | debug | info | warning | error
  deriving DecidableEq, Repr

inductive Source where
  | startup | settings | detection | dispatch | report
  deriving DecidableEq, Repr

structure LogRecord where
  level : Level
  source : Source
  message : RawText
  deriving DecidableEq, Repr

/-- A call that reaches a delegate or a factory. -/
inductive Call where
  | lifecycle (delegate : String) (operation : Lifecycle)
  | query (delegate : String) (query : Query) (path : Path) (counter : Option String)
  | factory (dialect : Dialect)
  deriving DecidableEq, Repr

/-- Who visits parsers: a dispatcher, which is known by its number, or a startup that failed and
closes what it has started. -/
inductive Visitor where
  | dispatcher (number : Nat)
  | startup
  deriving DecidableEq, Repr

/-- An operation on the parser of a dialect that came to an end, with a fault or without. -/
structure Visit where
  visitor : Visitor
  operation : Lifecycle
  dialect : Dialect
  parser : Parser
  fault : Option Fault
  deriving Repr

inductive Event where
  | called (call : Call)
  | logged (record : LogRecord)
  | visited (visit : Visit)
  deriving Repr

/-- The events so far, oldest first. -/
abbrev Trace := List Event

namespace Trace

def calls (trace : Trace) : List Call :=
  trace.filterMap fun
    | .called call => some call
    | _ => none

def log (trace : Trace) : List LogRecord :=
  trace.filterMap fun
    | .logged record => some record
    | _ => none

def visits (trace : Trace) : List Visit :=
  trace.filterMap fun
    | .visited visit => some visit
    | _ => none

/-- A trace without the records that only help to find faults. -/
def withoutDebug (trace : Trace) : Trace :=
  trace.filter fun
    | .logged record => record.level != .debug
    | _ => true

@[simp] theorem calls_append (a b : Trace) : calls (a ++ b) = calls a ++ calls b := by
  simp [calls]

@[simp] theorem log_append (a b : Trace) : log (a ++ b) = log a ++ log b := by
  simp [log]

@[simp] theorem visits_append (a b : Trace) : visits (a ++ b) = visits a ++ visits b := by
  simp [visits]

end Trace

def Level.name : Level → String
  | .debug => "DEBUG"
  | .info => "INFO"
  | .warning => "WARNING"
  | .error => "ERROR"

def Source.name : Source → String
  | .startup => "hybrid_buildfile"
  | .settings => "hybrid_buildfile.config"
  | .detection => "hybrid_buildfile.detect"
  | .dispatch => "hybrid_buildfile.hybrid"
  | .report => "show_syntax"

end BuildDialect
