import BuildDialect.Report.Basic

/-!
The report as a program. What the arguments may name is read once, before the report is made; the
log goes to the error output.
-/
namespace BuildDialect

/-- The locations through which a path leads, the last one included. -/
def Path.stations (p : Path) (home : Location) : List Location :=
  (p.names.foldl (fun (here, past) name =>
    let next :=
      if name = "." then here
      else if name = ".." then here.dropLast
      else here ++ [name.bytes]
    (next, next :: past)) (if p.isAbsolute then [] else home, [])).2

/-- The paths that an argument may stand for: its text, or what it assigns to an option. -/
def pathsOf (argument : RawText) : List Path :=
  let value := argument.dropWhile (· != .char '=')
  if value.isEmpty then [⟨argument⟩] else [⟨argument⟩, ⟨value.drop 1⟩]

def LogRecord.line (record : LogRecord) : String :=
  let level := record.level.name
  level ++ String.ofList (List.replicate (8 - level.length) ' ') ++
    s!"  {record.source.name}  {record.message.shown}"

namespace Program

/-- Adds what is found at a location, if its names are UTF-8 and lead anywhere. -/
def record (files : FileTree) (place : Location) : IO FileTree := do
  match place.mapM Utf8.decode? with
  | none => return files
  | some names =>
    let real? ← (IO.FS.realPath ("/" ++ "/".intercalate (names.map String.ofList))).toBaseIO
    match real? with
    | .error _ => return files
    | .ok real =>
      if ← real.isDir then return files.put place .directory
      match ← (IO.FS.readBinFile real).toBaseIO with
      | .ok bytes => return files.put place (.file bytes.toList)
      | .error _ => return files.put place .sealed

def snapshot (paths : List Path) : IO FileTree := do
  let start : Path := ⟨(← IO.currentDir).toString⟩
  let home := FileTree.locate start.names
  let places := start.stations [] ++ paths.flatMap fun p => p.stations home
  places.foldlM record ⟨[], home⟩

end Program
end BuildDialect

open BuildDialect in
/-- Reports the dialect of each build file. The exit code is 0 if all are found, 1 if some are not,
and 2 if the arguments are wrong. -/
def main (arguments : List String) : IO UInt32 := do
  let arguments := arguments.map RawText.ofString
  let files ← Program.snapshot (arguments.flatMap pathsOf)
  let (result, after) := (Report.run arguments).outcome { World.fresh with files }
  for entry in after.trace.log do
    IO.eprintln entry.line
  match result with
  | .ok exit =>
    IO.print exit.output
    IO.eprint exit.errors.shown
    return UInt32.ofNat exit.code
  | .error fault =>
    IO.eprintln s!"{fault.className}: {fault.message.shown}"
    return 1
