import BuildDialect.Yaml.Block
import BuildDialect.Yaml.Quoted
import BuildDialect.Yaml.Tag

/-!
The tokens of a text. A node that turns out to be a key is known for one only when its colon is
met. Until then it is a candidate, and the tokens from it on are held back: where the colon comes,
the token of the key goes in front of them. A token is released as soon as no candidate before it
is open, and not later: a fault further on does not hide what is released.
-/
namespace BuildDialect.Yaml

structure Candidate where
  /-- How many brackets are open around it. -/
  level : Int
  /-- The number of its first token. -/
  number : Nat
  /-- Whether it stands where only a key can. -/
  required : Bool
  mark : Mark
  deriving DecidableEq, Repr

structure Scanner where
  cursor : Cursor
  /-- How many brackets are open. A stray closing one makes it negative. -/
  level : Int
  /-- The tokens that are held back, and how many were released before them. -/
  held : List Token
  released : Nat
  /-- The column of the block around, and those of the blocks around that one. -/
  indent : Int
  outer : List Int
  /-- Whether a key without indicator may start here. -/
  allowsKey : Bool
  candidates : List Candidate
  ended : Bool
  deriving DecidableEq, Repr

abbrev Scan := StateT Scanner (Except Fault)

namespace Scanner

def start (intake : Intake) : Scanner where
  cursor := .start intake
  level := 0
  held := []
  released := 0
  indent := -1
  outer := []
  allowsKey := true
  candidates := []
  ended := false

/-- Brackets are open, where indentation does not count. -/
def inFlow (s : Scanner) : Bool := s.level != 0

def column (s : Scanner) : Int := s.cursor.column

/-- A key has to be on one line, and its colon within 1024 characters. -/
def isStale (s : Scanner) (k : Candidate) : Bool :=
  k.mark.line != s.cursor.mark.line || 1024 < s.cursor.mark.index - k.mark.index

/-- The number of the first token that is held back by a candidate. -/
def firstHeld (s : Scanner) : Option Nat :=
  (s.candidates.map Candidate.number).min?

end Scanner

namespace Scan

def read {α : Type} (reader : Reader α) : Scan α := fun s =>
  match reader s.cursor with
  | .ok (value, cursor) => .ok (value, { s with cursor })
  | .error fault => .error fault

def push (token : Token) : Scan Unit :=
  modify fun s => { s with held := s.held ++ [token] }

def insert (number : Nat) (token : Token) : Scan Unit :=
  modify fun s => { s with
    held := s.held.take (number - s.released) ++ token :: s.held.drop (number - s.released) }

def allowKey (allows : Bool) : Scan Unit :=
  modify fun s => { s with allowsKey := allows }

def expect (fits : Bool) : Scan Unit :=
  if fits then pure () else throw .token

def dropStale : Scan Unit := do
  let s ← get
  expect !(s.candidates.any fun k => s.isStale k && k.required)
  set { s with candidates := s.candidates.filter fun k => !s.isStale k }

def dropCandidate : Scan Unit := do
  let s ← get
  expect !(s.candidates.any fun k => k.level == s.level && k.required)
  set { s with candidates := s.candidates.filter fun k => k.level != s.level }

def addCandidate : Scan Unit := do
  let s ← get
  if s.allowsKey then
    dropCandidate
    let required := !s.inFlow && s.indent == s.column
    modify fun t => { t with
      candidates := t.candidates ++
        [⟨s.level, s.released + s.held.length, required, s.cursor.mark⟩] }

def endBlocks (column : Int) : Scan Unit := do
  let s ← get
  if !s.inFlow then
    let (inner, rest) := (s.indent :: s.outer).span fun indent => decide (column < indent)
    set { s with
      held := s.held ++ List.replicate inner.length Token.blockEnd
      indent := rest.headD (-1)
      outer := rest.tail }

def openBlock (column : Int) (opening : Scan Unit) : Scan Unit := do
  let s ← get
  if s.indent < column then
    set { s with indent := column, outer := s.indent :: s.outer }
    opening

/-- Moves past blank space, comments and line ends. `comment` says that a comment is open, and
`broke` that a line end was passed. -/
def gap (comment broke : Bool) (mark : Mark) : List Char → Mark × List Char × Bool
  | [] => (mark, [], broke)
  | c :: rest =>
    if isBreak c then gap false true (mark.after c) rest
    else if comment || c == ' ' then gap comment broke (mark.after c) rest
    else if c == '#' then gap true broke (mark.after c) rest
    else (mark, c :: rest, broke)

/-- Moves to the next token. After a line end a key may start, unless brackets are open. -/
def toNextToken : Scan Unit := do
  let s ← get
  let c := s.cursor
  let c := if c.mark.index == 0 && c.peek == some byteOrderMark then c.advance 1 else c
  let (mark, rest, broke) := gap false false c.mark c.rest
  set { s with
    cursor := { c with mark, rest }
    allowsKey := s.allowsKey || (broke && !s.inFlow) }
  read (Reader.need 1)

def streamEnd : Scan Unit := do
  endBlocks (-1)
  dropCandidate
  modify fun s => { s with allowsKey := false, candidates := [], ended := true }
  push .streamEnd

/-- What ends all blocks and has a line for itself. -/
def outermost (reader : Reader Token) : Scan Unit := do
  endBlocks (-1)
  dropCandidate
  allowKey false
  push (← read reader)

def separator (token : Token) : Scan Unit :=
  outermost do
    Reader.advance 3
    return token

def openFlow (token : Token) : Scan Unit := do
  addCandidate
  modify fun s => { s with level := s.level + 1, allowsKey := true }
  read (Reader.advance 1)
  push token

def closeFlow (token : Token) : Scan Unit := do
  dropCandidate
  modify fun s => { s with level := s.level - 1, allowsKey := false }
  read (Reader.advance 1)
  push token

def flowEntry : Scan Unit := do
  allowKey true
  dropCandidate
  read (Reader.advance 1)
  push .flowEntry

def blockEntry : Scan Unit := do
  let s ← get
  if !s.inFlow then
    expect s.allowsKey
    openBlock s.column (push .blockSequenceStart)
  allowKey true
  dropCandidate
  read (Reader.advance 1)
  push .blockEntry

def keyIndicator : Scan Unit := do
  let s ← get
  if !s.inFlow then
    expect s.allowsKey
    openBlock s.column (push .blockMappingStart)
  allowKey !s.inFlow
  dropCandidate
  read (Reader.advance 1)
  push .key

/-- The colon of a value. It makes the candidate before it a key. -/
def valueIndicator : Scan Unit := do
  let s ← get
  match s.candidates.find? fun k => k.level == s.level with
  | some k =>
    modify fun t => { t with candidates := t.candidates.filter fun other => other.level != s.level }
    insert k.number .key
    if !s.inFlow then openBlock k.mark.column (insert k.number .blockMappingStart)
    allowKey false
  | none =>
    if !s.inFlow then
      expect s.allowsKey
      openBlock s.column (push .blockMappingStart)
    allowKey !s.inFlow
    dropCandidate
  read (Reader.advance 1)
  push .value

/-- A token that may start a key, and after which none can start. -/
def startOfNode (reader : Reader Token) : Scan Unit := do
  addCandidate
  allowKey false
  push (← read reader)

def blockScalar (folded : Bool) : Scan Unit := do
  allowKey true
  dropCandidate
  let text ← read (Reader.block folded (← get).indent)
  push (.scalar text false)

/-- A plain scalar. If it ends a line, a key may follow. -/
def plainScalar : Scan Unit := do
  addCandidate
  let s ← get
  let (text, broke) ← read (Reader.plain s.inFlow (s.indent + 1))
  allowKey broke
  push (.scalar text true)

/-- The characters with which something else than a plain scalar starts, or nothing. -/
def isIndicator (c : Char) : Bool :=
  isWhite c || isBreak c || "-?:,[]\x7b\x7d#&*!|>\x27\x22%@\x60".toList.contains c

/-- A plain scalar, unless none can start here. Three of the indicators start one where a blank does
not follow. -/
def plainOrNothing (c : Char) : Scan Unit := do
  if isIndicator c then
    let following ← read (Reader.peekAt 1)
    let flow := (← get).inFlow
    expect (!endsIndicator following && (c == '-' || (!flow && (c == '?' || c == ':'))))
  plainScalar

/-- An indicator that a blank has to follow; otherwise a plain scalar. -/
def indicatorOr (c : Char) (token : Scan Unit) : Scan Unit := do
  if endsIndicator (← read (Reader.peekAt 1)) then token else plainOrNothing c

/-- What starts with a hyphen or a point, which may be a line that separates documents. -/
def separatorOr (token : Token) (other : Scan Unit) : Scan Unit := do
  if (← get).column == 0 then
    if ← read Reader.atSeparator then separator token else other
  else other

def dispatch (c : Char) : Scan Unit := do
  let s ← get
  let flow := s.inFlow
  if c == '%' && s.column == 0 then outermost Reader.directive
  else if c == '-' then separatorOr .documentStart (indicatorOr c blockEntry)
  else if c == '.' then separatorOr .documentEnd plainScalar
  else if c == '[' then openFlow .flowSequenceStart
  else if c == '\x7b' then openFlow .flowMappingStart
  else if c == ']' then closeFlow .flowSequenceEnd
  else if c == '\x7d' then closeFlow .flowMappingEnd
  else if c == ',' then flowEntry
  else if c == '?' then (if flow then keyIndicator else indicatorOr c keyIndicator)
  else if c == ':' then (if flow then valueIndicator else indicatorOr c valueIndicator)
  else if c == '*' then startOfNode (Token.alias <$> Reader.anchorName)
  else if c == '&' then startOfNode (Token.anchor <$> Reader.anchorName)
  else if c == '!' then startOfNode Reader.tag
  else if c == '|' && !flow then blockScalar false
  else if c == '>' && !flow then blockScalar true
  else if c == Quoted.single then startOfNode ((Token.scalar · false) <$> Reader.quoted false)
  else if c == Quoted.double then startOfNode ((Token.scalar · false) <$> Reader.quoted true)
  else plainOrNothing c

/-- Reads the next token, and those that it brings with it. -/
def next : Scan Unit := do
  toNextToken
  dropStale
  endBlocks (← get).column
  match (← get).cursor.peek with
  | none => streamEnd
  | some c => dispatch c

end Scan

namespace Tokens

/-- Releases tokens, after those released before, which come last first. -/
def release (before : List Token) : Nat → Scanner → Tokens
  | 0, _ => ⟨before.reverse, some .token⟩
  | fuel + 1, s =>
    if s.ended then ⟨before.reverse ++ s.held, none⟩
    else match s.held with
      | [] =>
        match Scan.next s with
        | .ok ((), s) => release before fuel s
        | .error fault => ⟨before.reverse, some fault⟩
      | token :: held =>
        match Scan.dropStale s with
        | .error fault => ⟨before.reverse, some fault⟩
        | .ok ((), s) =>
          if s.firstHeld == some s.released then
            match Scan.next s with
            | .ok ((), s) => release before fuel s
            | .error fault => ⟨before.reverse, some fault⟩
          else release (token :: before) fuel { s with held, released := s.released + 1 }

/-- The tokens of a text. Each character brings at most four, and is read in one step. -/
def ofIntake (intake : Intake) : Tokens :=
  release [] (6 * (intake.text.length + 2)) (.start intake)

end Tokens
end BuildDialect.Yaml
