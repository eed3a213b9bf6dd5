import BuildDialect.Text.CodePoint
import BuildDialect.Text.Split

/-!
Paths as they are written. A path keeps its text, because messages show it; a plain path is one
from which everything that leads nowhere has been struck. The system knows a name by its bytes. A
name whose bytes are not UTF-8 can be written all the same: some halves of surrogate pairs stand
for one byte each.
-/
namespace BuildDialect

namespace CodePoint

/-- The byte that a half of a surrogate pair stands for in a name, if it stands for one. -/
def byte? : CodePoint → Option UInt8
  | .char _ => none
  | .half offset =>
    if 0x480 ≤ offset.val ∧ offset.val < 0x500 then some (UInt8.ofNat (offset.val - 0x400))
    else none

def isStray (point : CodePoint) : Bool :=
  point.isHalf && point.byte?.isNone

def bytes : CodePoint → List UInt8
  | .char c => String.utf8EncodeChar c
  | point => point.byte?.toList

end CodePoint

def RawText.bytes (name : RawText) : List UInt8 :=
  name.flatMap CodePoint.bytes

structure Path where
  text : RawText
  deriving DecidableEq, Repr

namespace Path

def slash : CodePoint := .char '/'

/-- The names on the way, `.` and `..` among them. -/
def names (p : Path) : List RawText :=
  (stretches slash p.text).filter fun part => !part.isEmpty

def isAbsolute (p : Path) : Bool :=
  p.text.head? == some slash

/-- A path that ends in a slash can only mean a directory. -/
def endsInSlash (p : Path) : Bool :=
  p.text.getLast? == some slash

/-- The steps from the start to what the path means: a slash at the end is a step that stays. -/
def steps (p : Path) : List RawText :=
  if p.endsInSlash then p.names ++ [RawText.ofString "."] else p.names

end Path

/-- A path without empty and `.` names, which keeps its `..`. -/
structure PlainPath where
  /-- The slashes it starts with: none, one, or exactly two. -/
  slashes : Nat
  names : List RawText
  deriving DecidableEq, Repr

namespace PlainPath

/-- The plain form of a path. Two slashes at the start are kept, more than two are one. -/
def ofPath (p : Path) : PlainPath where
  slashes :=
    let leading := (p.text.takeWhile fun c => c == Path.slash).length
    if leading ≤ 2 then leading else 1
  names := p.names.filter fun name => name != "."

def toPath (p : PlainPath) : Path :=
  if p.slashes = 0 ∧ p.names = [] then ⟨"."⟩
  else ⟨List.replicate p.slashes Path.slash ++ List.intercalate [Path.slash] p.names⟩

/-- One name less; a path without names is its own parent. -/
def parent (p : PlainPath) : PlainPath :=
  { p with names := p.names.dropLast }

/-- The given names and then one name less each time. Names come last first. -/
def ascents : List RawText → List (List RawText)
  | [] => [[]]
  | name :: above => (name :: above) :: ascents above

def lineage (p : PlainPath) : List PlainPath :=
  (ascents p.names.reverse).map fun names => { p with names := names.reverse }

end PlainPath

def Path.plain (p : Path) : Path :=
  (PlainPath.ofPath p).toPath

end BuildDialect
