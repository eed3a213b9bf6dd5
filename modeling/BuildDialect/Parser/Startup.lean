import BuildDialect.Parser.Lifecycle
import BuildDialect.Parser.Registry

/-!
Starting a dispatcher from settings. Nothing is started unless every enabled dialect has a
factory; if a factory fails, what was started before it is closed again.
-/
namespace BuildDialect

/-- A way to start a parser: what comes of it may depend on how many were started before. -/
abbrev Factory := Nat → Except Fault Parser

namespace Startup

/-- Closes parsers in order. An ordinary fault is only logged. -/
def closeAll : List (Dialect × Parser) → Action Unit
  | [] => pure ()
  | (dialect, parser) :: rest => do
    match ← Errand.attempt ⟨dialect, parser, parser.perform .close⟩ .startup .close with
    | .ok () => pure ()
    | .error fault =>
      if fault.isInterrupt then throw fault
      Action.log .warning .startup
        (s!"Failed to close {dialect.name} parser after startup error: " ++ fault.message)
    closeAll rest

def start (factories : List (Dialect × Factory)) (position : Nat)
    (started : List (Dialect × Parser)) : List Dialect → Action (List (Dialect × Parser))
  | [] => pure started
  | dialect :: rest => do
    match factories.lookup dialect with
    | none => throw (.settings (.factoriesMissing [dialect] (factories.map Prod.fst)))
    | some factory =>
      Action.emit (.called (.factory dialect))
      match factory position with
      | .error fault =>
        if !fault.isInterrupt then closeAll started
        throw fault
      | .ok parser =>
        Action.log .info .startup s!"Started {dialect.name} parser: {parser.description}"
        start factories (position + 1) (Registry.assign started dialect parser) rest

end Startup

def Dispatcher.start (number : Nat) (name : String) (settings : Settings)
    (factories : List (Dialect × Factory)) : Action Parser := do
  let provided := factories.map Prod.fst
  let missing := settings.enabled.filter fun d => !provided.contains d
  if !missing.isEmpty then throw (.settings (.factoriesMissing missing provided))
  let started ← Startup.start factories 0 [] settings.enabled
  let entries : List (Key × Parser) := started.map fun e => (.dialect e.1, e.2)
  Dispatcher.create ⟨number, name, settings.defaultDialect⟩ entries

end BuildDialect
