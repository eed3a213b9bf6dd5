/-! The dialects in which build files are written, and the names they go by. -/
namespace BuildDialect

inductive Dialect where
  | pythonDsl
  | skylark
  deriving DecidableEq, Repr

namespace Dialect

/-- Every dialect, in the order in which they are listed to a reader. -/
def all : List Dialect := [.pythonDsl, .skylark]

/-- The name that a marker line and a settings file use. -/
def name : Dialect → String
  | .pythonDsl => "PYTHON_DSL"
  | .skylark => "SKYLARK"

/-- The dialect of exactly that name: case and blanks count. -/
def ofName? (text : String) : Option Dialect :=
  all.find? fun d => d.name == text

def knownNames : String := ", ".intercalate (all.map name)

theorem mem_all (d : Dialect) : d ∈ all := by
  cases d <;> decide

theorem ofName?_name (d : Dialect) : ofName? d.name = some d := by
  cases d <;> decide

theorem ofName?_eq_some_iff {text : String} {d : Dialect} :
    ofName? text = some d ↔ text = d.name := by
  constructor
  · intro h
    have := List.find?_some h
    simp at this
    exact this.symm
  · rintro rfl
    exact ofName?_name d

end Dialect
end BuildDialect
