import BuildDialect.Settings.Validation
import BuildDialect.Settings.Written
import BuildDialect.World
import BuildDialect.Yaml.Read

/-! Settings in files. A file may leave out a field, or hold others; but it holds a mapping. -/
namespace BuildDialect.Settings

/-- How deep a file is read: the mapping, its fields and their items. -/
def depth : Nat := 3

def ofBytes (path : Path) (bytes : List UInt8) : Except Fault Settings := do
  match Yaml.read depth bytes with
  | .error fault => .error (.yaml fault)
  | .ok (.scalar .nothing) => .error (.settings (.fileEmpty path))
  | .ok (.mapping pairs) =>
    match ofValue (.mapping pairs) with
    | .ok settings => .ok settings
    | .error violations => .error (.settings (.ofViolations violations))
  | .ok value => .error (.settings (.notMapping path value.typeName))

def load (path : Path) : Action Settings := do
  let path := path.plain
  if !(← Action.ask path FileTree.holds) then throw (.settings (.fileMissing path))
  let bytes ← Action.ask path FileTree.read
  let settings ← Process.settle (ofBytes path bytes)
  let enabled := Dialect.listing settings.enabled
  Action.log .info .settings
    ("Loaded config from " ++ path.text ++
      s!": default {settings.defaultDialect.name}, enabled {enabled}")
  return settings

def save (settings : Settings) (path : Path) : Action Unit := do
  let plain := PlainPath.ofPath path
  Action.makeDirectories plain.parent
  Action.change plain.toPath fun files p =>
    files.write p (Utf8.encode settings.written.toList)
  Action.log .info .settings ("Saved config to " ++ plain.toPath.text)

end BuildDialect.Settings
