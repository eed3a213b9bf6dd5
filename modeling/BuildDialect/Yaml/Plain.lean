import BuildDialect.Yaml.Cursor

/-!
Plain scalars. A plain scalar goes on over line ends as long as its lines are indented more than
the block around it; one line end becomes a space, and more of them lose the first.
-/
namespace BuildDialect.Yaml.Reader

/-- Whether a plain scalar stops before a character, given the one that follows. Only for a colon
the character that follows counts. -/
def stopsPlain (flow : Bool) (c : Char) (next : Option Char) : Bool :=
  isWhite c || isBreak c ||
    (c == ':' &&
      (endsIndicator next || (flow && next.any fun n => ",[]\x7b\x7d".toList.contains n))) ||
    (flow && ",?[]\x7b\x7d".toList.contains c)

def plainLength (flow : Bool) (n : Nat) : List Char → Nat
  | [] => n
  | c :: rest => if stopsPlain flow c rest.head? then n else plainLength flow (n + 1) rest

/-- Blank lines and indentation after a line end inside a plain scalar. Gives the line ends, after
those already read, which come last first; or nothing where a separator of documents follows. -/
def plainBreaks (breaks : List Char) : Nat → Reader (Option (List Char))
  | 0 => throw .token
  | fuel + 1 => do
    skipWhile (· == ' ')
    match ← takeBreak? with
    | none => return some breaks.reverse
    | some b =>
      if ← atSeparator then return none
      plainBreaks (b :: breaks) fuel

/-- The line ends of a scalar as they are folded: a single one is a space. -/
def fold (first : Char) (others : List Char) : List Char :=
  if first != '\n' then first :: others
  else if others.isEmpty then [' ']
  else others

/-- What is between two pieces of a plain scalar, and whether it has a line end. Nothing stands
between them if the scalar is over. -/
def plainGap (fuel : Nat) : Reader (List Char × Bool) := do
  let spaces ← takeWhile (· == ' ')
  match ← takeBreak? with
  | none => return (spaces, false)
  | some first =>
    if ← atSeparator then return ([], true)
    match ← plainBreaks [] fuel with
    | none => return ([], true)
    | some others => return (fold first others, true)

/-- The rest of a plain scalar, after what is already read and the gap that follows it. The text
comes last first. Also says whether the last gap that was read had a line end. -/
def plainAfter (flow : Bool) (indent : Int) (read gap : List Char) (broke : Bool) :
    Nat → Reader (List Char × Bool)
  | 0 => throw .token
  | fuel + 1 => do
    need 1
    let c ← get
    let size := plainLength flow 0 c.rest
    if c.peek == some '#' then return (read, broke)
    need (if c.peekAt size == some ':' then size + 2 else size + 1)
    if size == 0 then return (read, broke)
    let read := (c.rest.take size).reverseAux (gap.reverseAux read)
    advance size
    let (gap, broke) ← plainGap fuel
    let c ← get
    if gap.isEmpty || c.peek == some '#' || (!flow && decide ((c.column : Int) < indent)) then
      return (read, broke)
    plainAfter flow indent read gap broke fuel

/-- A plain scalar: its text, and whether what follows it starts on a new line. -/
def plain (flow : Bool) (indent : Int) : Reader (RawText × Bool) := do
  let (text, broke) ← plainAfter flow indent [] [] false ((← get).size + 1)
  return (.ofChars text.reverse, broke)

end BuildDialect.Yaml.Reader
