import BuildDialect.Text.Line
import BuildDialect.Text.Utf8
import BuildDialect.World

/-!
Which dialect a build file is written in. A file may ask for one by a marker at the very start of
its first line; what follows the marker, untrimmed, is the name. Without a marker the default
applies, and a name that is not known is a fault: there is no falling back.
-/
namespace BuildDialect

def marker : String := "# BUILD FILE SYNTAX: "

def afterOpening? : List Char → List Char → Option (List Char)
  | [], text => some text
  | _ :: _, [] => none
  | o :: opening, c :: text => if o = c then afterOpening? opening text else none

namespace BuildFile

def firstLine? (bytes : List UInt8) : Option String :=
  (Line.first? (Utf8.decode bytes)).map String.ofList

/-- The name that a first line asks for, if it is a marker line. -/
def requested? (line : String) : Option String :=
  (afterOpening? marker.toList line.toList).map String.ofList

def markerName? (bytes : List UInt8) : Option String :=
  (firstLine? bytes).bind requested?

end BuildFile

def readFirstLine (path : Path) : Action (Option String) := do
  return BuildFile.firstLine? (← Action.ask path FileTree.read)

def readMarker (path : Path) : Action (Option String) := do
  return BuildFile.markerName? (← Action.ask path FileTree.read)

def selectDialect (path : Path) (default : Dialect) : Action Dialect := do
  match ← readMarker path with
  | none =>
    Action.log .debug .detection
      ("No syntax marker in " ++ path.text ++ s!", using default {default.name}")
    return default
  | some name =>
    match Dialect.ofName? name with
    | none => throw (.unrecognized path name)
    | some dialect =>
      Action.log .debug .detection
        ("Syntax marker in " ++ path.text ++ s!" requests {dialect.name}")
      return dialect

end BuildDialect
