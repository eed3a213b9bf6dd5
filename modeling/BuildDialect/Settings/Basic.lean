import BuildDialect.Text.Quoted
import BuildDialect.Dialect

/-! The settings of a dispatcher: which dialects are enabled, and which one is the default. -/
namespace BuildDialect

/-- What a dispatcher is started from. The enabled dialects are in the order of registration. -/
structure Settings where
  defaultDialect : Dialect
  enabled : List Dialect
  deriving DecidableEq, Repr

namespace Settings

/-- The settings that hold where nothing is said: every dialect, the first one by default. -/
def standard : Settings where
  defaultDialect := .pythonDsl
  enabled := Dialect.all

def defaultKey : String := "default_build_file_syntax"

def enabledKey : String := "enabled_syntaxes"

end Settings

def Dialect.listing (dialects : List Dialect) : String :=
  Quoted.listing (dialects.map Dialect.name)

end BuildDialect
