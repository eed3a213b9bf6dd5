import BuildDialect.Settings.Basic
import BuildDialect.Value

/-! Settings as they go out: the value that is dumped, and the text of a settings file. -/
namespace BuildDialect.Settings

def dump (settings : Settings) : Value :=
  .mapping [(.text (.ofString defaultKey), .text (.ofString settings.defaultDialect.name)),
    (.text (.ofString enabledKey),
      .list (settings.enabled.map fun d => .text (.ofString d.name)))]

/-- The lines that stand before the settings, with the names to choose from. -/
def heading : String :=
  s!"# hybrid-buildfile parser configuration\n# Known syntaxes: {Dialect.knownNames}\n\n"

/-- The enabled dialects: one item a line, or brackets if there is none. -/
def writtenEnabled : List Dialect → String
  | [] => s!"{enabledKey}: []\n"
  | enabled => s!"{enabledKey}:\n" ++ String.join (enabled.map fun d => s!"- {d.name}\n")

def written (settings : Settings) : String :=
  heading ++ s!"{defaultKey}: {settings.defaultDialect.name}\n" ++ writtenEnabled settings.enabled

end BuildDialect.Settings
