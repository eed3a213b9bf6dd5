/-! Names for things: a thing that is given a name takes it from the one that had it. -/
namespace BuildDialect

abbrev Naming (α : Type) := String → Option α

namespace Naming

def empty {α : Type} : Naming α := fun _ => none

def assign {α : Type} (naming : Naming α) (name : String) (thing : α) : Naming α :=
  fun other => if other = name then some thing else naming other

@[simp] theorem assign_self {α : Type} (naming : Naming α) (name : String) (thing : α) :
    naming.assign name thing name = some thing := by
  simp [assign]

theorem assign_of_ne {α : Type} (naming : Naming α) {name other : String} (thing : α)
    (h : other ≠ name) : naming.assign name thing other = naming other := by
  simp [assign, h]

end Naming
end BuildDialect
