/-!
Whole numbers as decimal texts. A number of any size can be counted with, but only so many digits
are read or written.
-/
namespace BuildDialect

/-- A whole number as it is written, with the number of its digits. -/
structure Numeral where
  value : Int
  length : Nat
  deriving DecidableEq, Repr

inductive CountFault where
  /-- A text of so many digits. -/
  | longText (length : Nat)
  /-- A number with more digits than are written. -/
  | longNumber
  deriving DecidableEq, Repr

namespace Count

def digitLimit : Nat := 4300

def read (numeral : Numeral) : Except CountFault Int :=
  if digitLimit < numeral.length then .error (.longText numeral.length) else .ok numeral.value

def writable (n : Int) : Except CountFault Int :=
  if n.natAbs < Nat.pow 10 digitLimit then .ok n else .error .longNumber

end Count

def CountFault.message : CountFault → String
  | .longText length =>
    s!"Exceeds the limit ({Count.digitLimit} digits) for integer string conversion: value has " ++
      s!"{length} digits; use sys.set_int_max_str_digits() to increase the limit"
  | .longNumber =>
    s!"Exceeds the limit ({Count.digitLimit} digits) for integer string conversion; " ++
      "use sys.set_int_max_str_digits() to increase the limit"

end BuildDialect
