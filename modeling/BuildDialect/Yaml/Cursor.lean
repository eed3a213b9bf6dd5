import BuildDialect.Yaml.Intake

/-!
Positions in a YAML text, and reading from one on. Line ends have been made line feeds before, so
that a carriage return does not occur. Whatever is looked at has to be taken in first: where that
is not possible, reading ends with the fault of the text.
-/
namespace BuildDialect.Yaml

/-- A place in the text. The mark of byte order takes no column. -/
structure Mark where
  index : Nat
  line : Nat
  column : Nat
  deriving DecidableEq, Repr

structure Cursor where
  mark : Mark
  rest : List Char
  /-- The number of characters of the whole text. No more than that are still to be read. -/
  size : Nat
  /-- How many characters of the text can be looked at, and the fault that is met beyond them. -/
  limit : Option (Nat × Fault)
  deriving DecidableEq, Repr

def isBreak (c : Char) : Bool :=
  c == '\n' || c == '\x85' || c == '\u2028' || c == '\u2029'

def byteOrderMark : Char := '\uFEFF'

def isWhite (c : Char) : Bool :=
  c == ' ' || c == '\t'

/-- Nothing more, or a line end. -/
def endsLine (next : Option Char) : Bool :=
  next.all isBreak

def endsWord (next : Option Char) : Bool :=
  next.all fun c => c == ' ' || isBreak c

def endsIndicator (next : Option Char) : Bool :=
  next.all fun c => isWhite c || isBreak c

/-- The characters of names: letters and digits of ASCII, the hyphen and the underscore. -/
def isNameChar (c : Char) : Bool :=
  c.isAlphanum || c == '-' || c == '_'

def hexDigit? (c : Char) : Option Nat :=
  if '0' ≤ c ∧ c ≤ '9' then some (c.toNat - '0'.toNat)
  else if 'a' ≤ c ∧ c ≤ 'f' then some (c.toNat - 'a'.toNat + 10)
  else if 'A' ≤ c ∧ c ≤ 'F' then some (c.toNat - 'A'.toNat + 10)
  else none

def hexNumber? (digits : List Char) : Option Nat :=
  digits.foldlM (fun n c => (hexDigit? c).map (16 * n + ·)) 0

/-- The line end as the content of a scalar has it. -/
def contentBreak (c : Char) : Char :=
  if c = '\x85' then '\n' else c

def Mark.after (m : Mark) (c : Char) : Mark :=
  if isBreak c then ⟨m.index + 1, m.line + 1, 0⟩
  else ⟨m.index + 1, m.line, if c = byteOrderMark then m.column else m.column + 1⟩

namespace Cursor

def start (intake : Intake) : Cursor :=
  ⟨⟨0, 0, 0⟩, intake.text, intake.text.length, intake.limit⟩

def column (c : Cursor) : Nat := c.mark.column

def peek (c : Cursor) : Option Char :=
  c.rest.head?

def peekAt (c : Cursor) (n : Nat) : Option Char :=
  c.rest[n]?

def advance : Cursor → Nat → Cursor
  | c, 0 => c
  | c, n + 1 =>
    match c.rest with
    | [] => c
    | char :: rest => advance { c with mark := c.mark.after char, rest } n

def takeWhile (c : Cursor) (p : Char → Bool) : List Char × Cursor :=
  let taken := c.rest.takeWhile p
  (taken, c.advance taken.length)

/-- Whether the same mark, a hyphen or a point, comes three times. -/
def atMarks (c : Cursor) : Bool :=
  match c.rest with
  | a :: b :: d :: _ => (a == '-' || a == '.') && b == a && d == a
  | _ => false

/-- Whether one of the lines that separate documents comes next. -/
def atSeparator (c : Cursor) : Bool :=
  c.atMarks && endsIndicator (c.peekAt 3)

end Cursor

abbrev Reader := StateT Cursor (Except Fault)

namespace Reader

def need (n : Nat) : Reader Unit := do
  let c ← get
  match c.limit with
  | some (sound, fault) => if sound < c.mark.index + n then throw fault else pure ()
  | none => pure ()

def peek : Reader (Option Char) := do
  need 1
  return (← get).peek

def peekAt (n : Nat) : Reader (Option Char) := do
  need (n + 1)
  return (← get).peekAt n

def advance (n : Nat) : Reader Unit := do
  modify fun c => c.advance n
  need 1

def takeWhile (p : Char → Bool) : Reader (List Char) := do
  let taken ← modifyGet fun c => c.takeWhile p
  need 1
  return taken

def skipWhile (p : Char → Bool) : Reader Unit := do
  let _ ← takeWhile p

def expect (fits : Bool) : Reader Unit :=
  if fits then pure () else throw .token

def takeBreak? : Reader (Option Char) := do
  match ← peek with
  | none => return none
  | some char =>
    if isBreak char then
      advance 1
      return some (contentBreak char)
    else return none

def atSeparator : Reader Bool := do
  need 3
  let c ← get
  if c.atMarks then need 4
  return c.atSeparator

/-- Reads the end of a line on which nothing but a comment may follow. -/
def lineEnd : Reader Unit := do
  skipWhile (· == ' ')
  if (← peek) == some '#' then skipWhile fun c => !isBreak c
  expect (endsLine (← peek))
  advance 1

end Reader
end BuildDialect.Yaml
