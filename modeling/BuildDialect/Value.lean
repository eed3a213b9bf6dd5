import BuildDialect.Calendar
import BuildDialect.Dialect
import BuildDialect.Double
import BuildDialect.Text.CodePoint

/-! Values as they come from outside, before anything is known about them. -/
namespace BuildDialect

/-- Values without parts, texts apart. -/
inductive Scalar where
  | nothing
  | truth (value : Bool)
  | integer (value : Int)
  | real (value : Double)
  | bytes (bytes : List UInt8)
  | date (day : Day)
  | moment (day : Day) (time : TimeOfDay)
  deriving DecidableEq, Repr

inductive Value where
  | scalar (scalar : Scalar)
  | text (text : RawText)
  | dialect (dialect : Dialect)
  | list (items : List Value)
  | tuple (items : List Value)
  | set (items : List Value)
  | mapping (pairs : List (Value × Value))
  deriving Repr

namespace Scalar

def typeName : Scalar → String
  | .nothing => "NoneType"
  | .truth _ => "bool"
  | .integer _ => "int"
  | .real _ => "float"
  | .bytes _ => "bytes"
  | .date _ => "date"
  | .moment .. => "datetime"

/-- The integer that a scalar counts as. Truth values count as well. -/
def integer? : Scalar → Option Int
  | .truth value => some (if value then 1 else 0)
  | .integer value => some value
  | _ => none

/-- Whether two scalars are equal. Numbers are compared by value, whatever their type. -/
def isSame (a b : Scalar) : Bool :=
  match a.integer?, b.integer? with
  | some m, some n => m == n
  | some m, none =>
    match b with
    | .real y => y.isInt m
    | _ => false
  | none, some n =>
    match a with
    | .real x => x.isInt n
    | _ => false
  | none, none =>
    match a, b with
    | .real x, .real y => x.equals y
    | .moment day time, .moment otherDay other => time.isSame day otherDay other
    | _, _ => a == b

end Scalar

namespace Value

def typeName : Value → String
  | .scalar s => s.typeName
  | .text _ => "str"
  | .dialect _ => "Syntax"
  | .list _ => "list"
  | .tuple _ => "tuple"
  | .set _ => "set"
  | .mapping _ => "dict"

def isSame : Value → Value → Bool
  | .scalar a, .scalar b => a.isSame b
  | .text a, .text b => a == b
  | _, _ => false

/-- The first of equal scalars and texts each. -/
def distinct (items : List Value) : List Value :=
  items.foldl (fun kept item => if kept.any item.isSame then kept else kept ++ [item]) []

def isText (text : String) : Value → Bool
  | .text t => t == RawText.ofString text
  | _ => false

/-- The value under a text in the pairs of a mapping. Of pairs with one key the last counts. -/
def field? (pairs : List (Value × Value)) (key : String) : Option Value :=
  (pairs.reverse.find? fun pair => pair.1.isText key).map Prod.snd

end Value
end BuildDialect
