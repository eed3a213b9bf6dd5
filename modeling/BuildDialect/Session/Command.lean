import BuildDialect.Fault
import BuildDialect.Parser.Basic
import BuildDialect.Value

/-!
What a session can be told to do. Parsers, settings and counters go by names, under which a
session keeps them; naming something again takes the name from what had it.
-/
namespace BuildDialect

structure Offer where
  key : Key
  parser : String
  deriving Repr

/-- What a factory does when it is called: it gives a parser that is there, or fails. -/
inductive Making where
  | give (parser : String)
  | fail (fault : Fault)
  deriving Repr

structure DelegatePlan where
  name : String
  description : String
  rules : List Rule
  metaRules : List Rule
  /-- The operations that fail. -/
  failures : List (Operation × Fault)
  deriving Repr

inductive Command where
  /-- Which dialect goes by a name. -/
  | dialectNamed (name : String)
  | firstLine (path : Path)
  | markerName (path : Path)
  | select (path : Path) (default : Dialect)
  /-- Writes a build file and says all that is detected of it. -/
  | detect (content : List UInt8) (default : Dialect)
  /-- Writes a file, in a directory that is made if it is lacking. -/
  | write (path : Path) (content : List UInt8)
  | makeDirectory (path : Path)
  | remove (path : Path)
  /-- Settings from a value, under a name if one is given. -/
  | validate (value : Value) (name : Option String)
  | load (path : Path) (name : Option String)
  /-- Writes a settings file and loads it. -/
  | loadContent (content : List UInt8) (name : Option String)
  /-- Changes fields of settings. No rule for settings is applied. -/
  | adjust (settings : String) (default : Option Dialect) (enabled : Option (List Dialect))
  | save (settings : String) (path : Path)
  | compare (first second : String)
  | counter (name : String) (value : Numeral)
  | add (counter : String) (delta : Numeral)
  | delegate (plan : DelegatePlan)
  /-- Changes how a delegate ends an operation from now on. -/
  | schedule (delegate : String) (operation : Operation) (fault : Option Fault)
  | dispatcher (name : String) (offers : List Offer) (default : Dialect)
  /-- Starts a dispatcher from settings, or from the standard ones. -/
  | start (name : String) (settings : Option String) (factories : List (Dialect × Making))
  | describe (parser : String)
  | ask (parser : String) (query : Query) (path : Path) (counter : Option String)
  | route (parser : String) (path : Path)
  | perform (parser : String) (operation : Lifecycle)
  /-- A block over a parser, which is closed when the block is left. A block that gets to its end
  is left with a fault if one is given. -/
  | block (parser : String) (body : List Command) (ending : Option Fault)
  /-- What a fault looks like. -/
  | explain (fault : Fault)
  | report (arguments : List RawText)
  deriving Repr

end BuildDialect
