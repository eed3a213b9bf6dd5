import BuildDialect.Parser.Routing
import BuildDialect.Parser.Startup
import BuildDialect.Session.Reply

/-! A session: a world in which parsers and settings have names. -/
namespace BuildDialect

structure Session where
  world : World
  parsers : Naming Parser
  settings : Naming Settings
  /-- How many parsers were made: the number of the next one. -/
  made : Nat

def Session.fresh : Session where
  world := .fresh
  parsers := .empty
  settings := .empty
  made := 0

abbrev Turn := Process Session

namespace Turn

def act {α : Type} (action : Action α) : Turn α := fun session =>
  match action.outcome session.world with
  | (result, world) => (result, { session with world })

/-- What a turn ends with, as a value, and what happens in it. Nothing that it does is undone. -/
def answer {α : Type} (turn : Turn α) : Turn (Answer α) := fun session =>
  match turn.outcome session with
  | (result, after) =>
    (.ok ⟨result, after.world.trace.drop session.world.trace.length⟩, after)

def named {α : Type} (name : String) : Option α → Turn α
  | some thing => pure thing
  | none => throw (.unnamed name)

def parser (name : String) : Turn Parser := do
  named name ((← get).parsers name)

def settings (name : String) : Turn Settings := do
  named name ((← get).settings name)

def counter (name : String) : Turn Int := do
  named name ((← get).world.counters name)

def keepParser (name : String) (parser : Parser) : Turn Unit :=
  modify fun s => { s with parsers := s.parsers.assign name parser }

/-- Keeps settings, if there is a name for them. -/
def keepSettings (name : Option String) (settings : Settings) : Turn Unit :=
  match name with
  | none => pure ()
  | some name => modify fun s => { s with settings := s.settings.assign name settings }

def keepCounter (name : String) (value : Int) : Turn Unit :=
  modify fun s => { s with
    world := { s.world with counters := s.world.counters.assign name value } }

def newNumber : Turn Nat := do
  let number := (← get).made
  modify fun s => { s with made := number + 1 }
  return number

def schedule (number : Nat) (operation : Operation) (fault : Option Fault) : Turn Unit :=
  modify fun s => { s with
    world := { s.world with
      script := fun trace n o =>
        if n = number ∧ o = operation then fault else s.world.script trace n o } }

def scheduleAll (number : Nat) : List (Operation × Fault) → Turn Unit
  | [] => pure ()
  | (operation, fault) :: rest => do
    schedule number operation (some fault)
    scheduleAll number rest

end Turn
end BuildDialect
