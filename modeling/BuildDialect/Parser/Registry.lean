import BuildDialect.World

/-!
Registries: at most one entry for each dialect, in the order in which the dialects were first
given. A dispatcher is made only of a registry that has its default.
-/
namespace BuildDialect

namespace Registry

/-- Gives a dialect an entry. A dialect that has one keeps its place. -/
def assign {α : Type} (registry : List (Dialect × α)) (dialect : Dialect) (entry : α) :
    List (Dialect × α) :=
  if registry.any (fun e => e.1 == dialect) then
    registry.map fun e => if e.1 = dialect then (dialect, entry) else e
  else registry ++ [(dialect, entry)]

def gather {α : Type} (entries : List (Dialect × α)) : List (Dialect × α) :=
  entries.foldl (fun registry e => assign registry e.1 e.2) []

/-- The registry of entries under any keys, if a dispatcher with that default can have it. -/
def ofEntries {α : Type} (entries : List (Key × α)) (default : Dialect) :
    Except RegistryFault (List (Dialect × α)) :=
  if entries.isEmpty then .error .empty
  else match entries.findSome? fun e => e.1.foreign? with
    | some key => .error (.foreignKey key)
    | none =>
      let registry := gather (entries.filterMap fun e => e.1.dialect?.map fun d => (d, e.2))
      let dialects := registry.map Prod.fst
      if dialects.contains default then .ok registry
      else .error (.defaultUnmapped default dialects)

end Registry

def Dispatcher.create (dispatcher : Dispatcher) (entries : List (Key × Parser)) :
    Action Parser := do
  match Registry.ofEntries entries dispatcher.default with
  | .error fault => throw (.registry fault)
  | .ok registry =>
    let dialects := Dialect.listing (registry.map Prod.fst)
    Action.log .info .dispatch
      s!"Created hybrid parser for {dialects} (default: {dispatcher.default.name})"
    return .dispatcher dispatcher registry

end BuildDialect
