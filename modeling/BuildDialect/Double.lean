/-!
Numbers of double precision. Each operation gives the number nearest to the exact result, and of
two that are equally near the one with the even mantissa; what is too large becomes infinite.
-/
namespace BuildDialect

inductive Double where
  /-- The number `mantissa · 2 ^ exponent` with a sign, which zero has as well. -/
  | finite (negative : Bool) (mantissa : Nat) (exponent : Int)
  | infinite (negative : Bool)
  /-- The outcome of what has none. It is equal only to one of the same origin. -/
  | undefined (origin : Option Nat)
  deriving DecidableEq, Repr

namespace Double

def precision : Nat := 53

def leastExponent : Int := -1074

def greatestExponent : Int := 971

/-- The fraction `n · base ^ e`, as numerator and denominator. -/
def scale (base n : Nat) (e : Int) : Nat × Nat :=
  if 0 ≤ e then (n * base.pow e.toNat, 1) else (n, base.pow (-e).toNat)

/-- The quotient of two numbers, rounded to the nearest one; a half goes to the even one. -/
def roundDiv (num den : Nat) : Nat :=
  let q := num / den
  let r := num % den
  if 2 * r < den then q
  else if den < 2 * r then q + 1
  else q + q % 2

/-- The exponent of the last binary digit that is kept of a fraction. -/
def lastExponent (num den : Nat) : Int :=
  let guess : Int := (num.log2 : Int) - den.log2 - precision
  let (n, d) := scale 2 den guess
  if num * d / n < Nat.pow 2 precision then max guess leastExponent
  else max (guess + 1) leastExponent

def ofFraction (negative : Bool) (num den : Nat) : Double :=
  if num = 0 then .finite negative 0 leastExponent
  else
    let exponent := lastExponent num den
    let (n, d) := scale 2 den exponent
    let mantissa := roundDiv (num * d) n
    let (mantissa, exponent) :=
      if mantissa = Nat.pow 2 precision then (Nat.pow 2 (precision - 1), exponent + 1)
      else (mantissa, exponent)
    if greatestExponent < exponent then .infinite negative
    else .finite negative mantissa exponent

def ofInt? (n : Int) : Option Double :=
  match ofFraction (decide (n < 0)) n.natAbs 1 with
  | .infinite _ => none
  | x => some x

def neg : Double → Double
  | .finite negative mantissa exponent => .finite (!negative) mantissa exponent
  | .infinite negative => .infinite (!negative)
  | .undefined origin => .undefined origin

def signed (negative : Bool) (size : Nat) : Int :=
  if negative then -(size : Int) else size

def mul : Double → Double → Double
  | .finite s m e, .finite t n f =>
    let (num, den) := scale 2 (m * n) (e + f)
    ofFraction (s != t) num den
  | .finite s m _, .infinite t => if m = 0 then .undefined none else .infinite (s != t)
  | .infinite s, .finite t m _ => if m = 0 then .undefined none else .infinite (s != t)
  | .infinite s, .infinite t => .infinite (s != t)
  | _, _ => .undefined none

def add : Double → Double → Double
  | .finite s m e, .finite t n f =>
    let last := min e f
    let sum := signed s (m * Nat.pow 2 (e - last).toNat) + signed t (n * Nat.pow 2 (f - last).toNat)
    let (num, den) := scale 2 sum.natAbs last
    ofFraction (if sum = 0 then s && t else decide (sum < 0)) num den
  | .infinite s, .infinite t => if s = t then .infinite s else .undefined none
  | .infinite s, .finite .. => .infinite s
  | .finite .., .infinite t => .infinite t
  | _, _ => .undefined none

/-- Whether two numbers are equal. The two zeros are. -/
def equals : Double → Double → Bool
  | .finite s m e, .finite t n f =>
    let last := min e f
    signed s (m * Nat.pow 2 (e - last).toNat) == signed t (n * Nat.pow 2 (f - last).toNat)
  | x, y => x == y

def isInt (n : Int) : Double → Bool
  | .finite s m e =>
    let (num, den) := scale 2 m e
    signed s num == n * den
  | _ => false

end Double
end BuildDialect
