import BuildDialect.Yaml.Cursor

/-!
Block scalars. Their lines are those that are indented as deep as the first, or as deep as the
header says; literal ones keep line ends, folded ones join lines that start with no white space.
The header also says what becomes of the line ends at the end.
-/
namespace BuildDialect.Yaml.Reader

/-- What becomes of the line ends at the end of a block scalar. -/
inductive Chomping where
  /-- All are dropped. -/
  | strip
  /-- The first is kept. -/
  | clip
  /-- All are kept. -/
  | keep
  deriving DecidableEq, Repr

def chomping? : Reader (Option Chomping) := do
  match ← peek with
  | some '+' => advance 1; return some .keep
  | some '-' => advance 1; return some .strip
  | _ => return none

/-- The indicator of indentation, if it comes next. Zero is none. -/
def indentation? : Reader (Option Nat) := do
  match ← peek with
  | some c =>
    if c.isDigit then
      expect (c != '0')
      advance 1
      return some (c.toNat - '0'.toNat)
    else return none
  | none => return none

def blockHeader : Reader (Chomping × Option Nat) := do
  advance 1
  match ← chomping? with
  | some chomping =>
    let indentation ← indentation?
    expect (endsWord (← peek))
    return (chomping, indentation)
  | none =>
    match ← indentation? with
    | none =>
      expect (endsWord (← peek))
      return (.clip, none)
    | some indentation =>
      let chomping ← chomping?
      expect (endsWord (← peek))
      return (chomping.getD .clip, some indentation)

/-- The blank lines before the content, after those already read, which come last first, and the
deepest indentation met. -/
def blockIndentation (breaks : List Char) (deepest : Nat) : Nat → Reader (List Char × Nat)
  | 0 => throw .token
  | fuel + 1 => do
    match ← takeBreak? with
    | some b => blockIndentation (b :: breaks) deepest fuel
    | none =>
      if (← peek) == some ' ' then
        advance 1
        blockIndentation breaks (max deepest (← get).column) fuel
      else return (breaks.reverse, deepest)

def skipIndent (indent : Nat) : Reader Unit := do
  let c ← get
  let spaces := (c.rest.takeWhile (· == ' ')).length
  advance (min spaces (indent - c.column))

/-- The blank lines before the next line of content, after those already read, which come last
first. -/
def blockBreaks (indent : Nat) (breaks : List Char) : Nat → Reader (List Char)
  | 0 => throw .token
  | fuel + 1 => do
    skipIndent indent
    match ← takeBreak? with
    | none => return breaks.reverse
    | some b => blockBreaks indent (b :: breaks) fuel

def atContent (indent : Nat) : Reader Bool := do
  let c ← get
  return c.column == indent && c.peek.isSome

/-- The lines of a block scalar, after what is already read and the blank lines that follow it.
Gives the text without its end, last first, the last line end and the blank lines after it. -/
def blockLines (folded : Bool) (indent : Nat) (read breaks : List Char) :
    Nat → Reader (List Char × Option Char × List Char)
  | 0 => throw .token
  | fuel + 1 => do
    let indented := (← peek).any isWhite
    let line ← takeWhile fun c => !isBreak c
    let read := line.reverseAux (breaks.reverseAux read)
    let ending ← takeBreak?
    let breaks ← blockBreaks indent [] fuel
    if ← atContent indent then
      let joins := folded && ending == some '\n' && !indented && !(← peek).any isWhite
      let between := if joins then (if breaks.isEmpty then [' '] else []) else ending.toList
      blockLines folded indent (between.reverseAux read) breaks fuel
    else return (read, ending, breaks)

def block (folded : Bool) (around : Int) : Reader RawText := do
  let (chomping, increment) ← blockHeader
  lineEnd
  let least := (max 1 (around + 1)).toNat
  let size := (← get).size + 1
  let (breaks, indent) ← match increment with
    | none => do
      let (breaks, deepest) ← blockIndentation [] 0 size
      pure (breaks, max least deepest)
    | some increment => do
      let indent := least + increment - 1
      let breaks ← blockBreaks indent [] size
      pure (breaks, indent)
  let (text, ending, breaks) ←
    if ← atContent indent then blockLines folded indent [] breaks size
    else pure ([], none, breaks)
  return .ofChars <| text.reverseAux <| match chomping with
    | .strip => []
    | .clip => ending.toList
    | .keep => ending.toList ++ breaks

end BuildDialect.Yaml.Reader
