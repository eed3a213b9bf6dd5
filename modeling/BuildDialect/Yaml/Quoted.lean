import BuildDialect.Text.Quoted
import BuildDialect.Yaml.Plain

/-!
Quoted scalars. Between single quotes only the quote itself has to be doubled; between double
quotes a backslash starts an escape. Line ends are folded in both.
-/
namespace BuildDialect.Yaml.Reader

def shortEscapes : List (Char × Char) :=
  [('0', '\x00'), ('a', '\x07'), ('b', '\x08'), ('t', '\t'), ('\t', '\t'), ('n', '\n'),
    ('v', '\x0b'), ('f', '\x0c'), ('r', '\x0d'), ('e', '\x1b'), (' ', ' '), ('\x22', '\x22'),
    ('\\', '\\'), ('/', '/'), ('N', '\x85'), ('_', '\xa0'), ('L', '\u2028'), ('P', '\u2029')]

/-- How many digits follow a backslash and a letter. -/
def longEscapes : List (Char × Nat) :=
  [('x', 2), ('u', 4), ('U', 8)]

def codePoint (n : Nat) : Reader CodePoint :=
  if 0x7FFFFFFF < n then throw .codeWord
  else match CodePoint.ofNat? n with
    | some point => pure point
    | none => throw .codePoint

/-- The line ends inside a quoted scalar, after those already read, which come last first. The
indentation of lines is dropped, and no separator of documents may come. -/
def quotedBreaks (breaks : List Char) : Nat → Reader (List Char)
  | 0 => throw .token
  | fuel + 1 => do
    expect !(← atSeparator)
    skipWhile isWhite
    match ← takeBreak? with
    | none => return breaks.reverse
    | some b => quotedBreaks (b :: breaks) fuel

def escapedPoint (size : Nat) : Reader CodePoint := do
  let digits := ((← get).rest.take size).takeWhile fun c => (hexDigit? c).isSome
  need (min size (digits.length + 1))
  expect (digits.length == size)
  let point ← codePoint ((hexNumber? digits).getD 0)
  advance size
  return point

def escape (fuel : Nat) : Reader RawText := do
  advance 1
  match ← peek with
  | none => throw .token
  | some c =>
    match shortEscapes.lookup c, longEscapes.lookup c with
    | some char, _ =>
      advance 1
      return [.char char]
    | none, some size =>
      advance 1
      return [← escapedPoint size]
    | none, none =>
      match ← takeBreak? with
      | none => throw .token
      | some _ => return .ofChars (← quotedBreaks [] fuel)

/-- Whether a character belongs to a stretch of a quoted scalar whatever its quote marks are. -/
def isQuotedChar (c : Char) : Bool :=
  !(isWhite c || isBreak c || c == Quoted.single || c == Quoted.double || c == '\\')

def quotedWord (double : Bool) (read : RawText) : Nat → Reader RawText
  | 0 => throw .token
  | fuel + 1 => do
    let read := (RawText.ofChars (← takeWhile isQuotedChar)).reverseAux read
    match ← peek with
    | none => return read
    | some c =>
      if c == '\\' && double then
        let text ← escape fuel
        quotedWord double (text.reverseAux read) fuel
      else if c == Quoted.single && !double then
        if (← peekAt 1) == some Quoted.single then
          advance 2
          quotedWord double (.char c :: read) fuel
        else return read
      else if c == Quoted.single || ((c == Quoted.double || c == '\\') && !double) then
        advance 1
        quotedWord double (.char c :: read) fuel
      else return read

def quotedGap (fuel : Nat) : Reader (List Char) := do
  let spaces ← takeWhile isWhite
  expect (← peek).isSome
  match ← takeBreak? with
  | none => return spaces
  | some first => return fold first (← quotedBreaks [] fuel)

def quotedAfter (double : Bool) (read : RawText) : Nat → Reader RawText
  | 0 => throw .token
  | fuel + 1 => do
    let read ← quotedWord double read (fuel + 1)
    if (← peek) == some (if double then Quoted.double else Quoted.single) then
      advance 1
      return read
    else
      let gap ← quotedGap (fuel + 1)
      quotedAfter double ((RawText.ofChars gap).reverseAux read) fuel

def quoted (double : Bool) : Reader RawText := do
  advance 1
  return (← quotedAfter double [] ((← get).size + 1)).reverse

end BuildDialect.Yaml.Reader
