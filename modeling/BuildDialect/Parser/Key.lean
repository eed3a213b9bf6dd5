import BuildDialect.Dialect
import BuildDialect.Text.Quoted
import BuildDialect.Text.Decimal

/-! Keys under which parsers are offered for registration. Only a dialect is a valid one. -/
namespace BuildDialect

inductive ForeignKey where
  | nothing
  | truth (value : Bool)
  | integer (value : Int)
  | real (value : Double)
  | text (value : String)
  deriving Repr

def ForeignKey.shown : ForeignKey → String
  | .nothing => "None"
  | .truth true => "True"
  | .truth false => "False"
  | .integer value => toString value
  | .real value => Decimal.shown value
  | .text value => Quoted.quote value

inductive Key where
  | dialect (dialect : Dialect)
  | foreign (key : ForeignKey)
  deriving Repr

def Key.dialect? : Key → Option Dialect
  | .dialect d => some d
  | .foreign _ => none

def Key.foreign? : Key → Option ForeignKey
  | .dialect _ => none
  | .foreign key => some key

end BuildDialect
