import BuildDialect.Files.Path
import BuildDialect.Text.Quoted

/-! Why an access to a file fails. -/
namespace BuildDialect

inductive FileCause where
  | missing
  | denied
  | taken
  | notDirectory
  | isDirectory
  | nameTooLong
  /-- A path with the character zero in it. -/
  | nullCharacter
  /-- A path with a point in it that stands for no bytes. -/
  | unencodable
  deriving DecidableEq, Repr

namespace FileCause

/-- The system's number and words for a cause, if it is one that the system finds. -/
def report? : FileCause → Option (Nat × String)
  | .missing => some (2, "No such file or directory")
  | .denied => some (13, "Permission denied")
  | .taken => some (17, "File exists")
  | .notDirectory => some (20, "Not a directory")
  | .isDirectory => some (21, "Is a directory")
  | .nameTooLong => some (36, "File name too long")
  | .nullCharacter | .unencodable => none

def isSystem (cause : FileCause) : Bool :=
  cause.report?.isSome

end FileCause

def Path.barred? (p : Path) : Option FileCause :=
  if p.text.any CodePoint.isStray then some .unencodable
  else if p.text.contains (.char (Char.ofNat 0)) then some .nullCharacter
  else none

structure FileFault where
  cause : FileCause
  path : Path
  deriving DecidableEq, Repr

namespace FileFault

/-- The message: number, words and the quoted path, if the system has seen the path. -/
def message (f : FileFault) : String :=
  match f.cause.report? with
  | some (number, words) => s!"[Errno {number}] {words}: {Quoted.quoteRaw f.path.text}"
  | none =>
    if f.cause = .nullCharacter then "embedded null byte"
    else f.path.text.unwritableMessage CodePoint.isStray

end FileFault
end BuildDialect
