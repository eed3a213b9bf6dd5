import BuildDialect.Parser.Basic
import BuildDialect.Report.Basic

/-! What a session answers to its commands. -/
namespace BuildDialect

structure Answer (α : Type) where
  result : Except Fault α
  trace : Trace

structure Detected where
  firstLine : Option String
  marker : Option String
  selected : Except Fault Dialect

structure Profile where
  default : Dialect
  /-- The registered dialects and the names of their parsers, in order of registration. -/
  parsers : List (Dialect × String)
  description : String
  deriving DecidableEq, Repr

inductive Reply where
  | done
  | found (dialect : Option Dialect)
  | line (text : Option String)
  | detected (detected : Detected)
  | settings (settings : Settings)
  | text (text : String)
  | truth (truth : Bool)
  /-- What an addition gave, and the counter after it. -/
  | sum (total : Int) (value : Int)
  /-- A new counter. -/
  | counter (value : Int)
  | profile (profile : Profile)
  /-- The rules of a build file, and the value of the counter that was given. -/
  | rules (rules : List Rule) (counter : Option Int)
  /-- The steps of a block that were made, and the fault with which it was left. -/
  | block (steps : List (Answer Reply)) (leftWith : Option Fault)
  | fault (fault : Fault)
  | exit (exit : Report.Exit)

def countText (value : Int) : String :=
  s!"ProcessedBytes({value})"

end BuildDialect
