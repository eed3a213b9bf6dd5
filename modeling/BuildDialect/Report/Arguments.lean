import BuildDialect.Dialect
import BuildDialect.Text.Digit
import BuildDialect.Text.Quoted

/-!
The arguments of the report: build files, and at most one of two ways to give the default dialect.
Options may be shortened as long as it is clear which one is meant; after two hyphens alone,
nothing is an option. The build files are the first words in a row that are no options.
-/
namespace BuildDialect.Report

inductive Flag where
  | help
  | default
  | config
  deriving DecidableEq, Repr

def Flag.name : Flag → String
  | .help => "-h/--help"
  | .default => "--default"
  | .config => "--config"

def spellings : List (RawText × Flag) :=
  [("-h", .help), ("--help", .help), ("--default", .default), ("--config", .config)]

/-- What is wrong with arguments. -/
inductive Misuse where
  | ambiguous (word : RawText) (candidates : List RawText)
  | uselessValue (flag : Flag) (value : RawText)
  | valueMissing (flag : Flag)
  | noChoice (value : RawText)
  | conflict (flag earlier : Flag)
  | filesMissing
  | unrecognized (words : List RawText)
  deriving DecidableEq, Repr

def Misuse.message : Misuse → RawText
  | .ambiguous word candidates =>
    "ambiguous option: " ++ word ++ " could match " ++
      List.intercalate (RawText.ofString ", ") candidates
  | .uselessValue flag value =>
    s!"argument {flag.name}: ignored explicit argument {Quoted.quoteRaw value}"
  | .valueMissing flag => s!"argument {flag.name}: expected one argument"
  | .noChoice value =>
    s!"argument {Flag.default.name}: invalid choice: {Quoted.quoteRaw value} (choose from " ++
      ", ".intercalate (Dialect.all.map fun d => Quoted.quote d.name) ++ ")"
  | .conflict flag earlier => s!"argument {flag.name}: not allowed with argument {earlier.name}"
  | .filesMissing => "the following arguments are required: build_files"
  | .unrecognized words =>
    "unrecognized arguments: " ++ List.intercalate (RawText.ofString " ") words

/-- Why arguments do not lead to a report. -/
inductive Halt where
  | help
  | misuse (misuse : Misuse)
  deriving DecidableEq, Repr

inductive Word where
  | argument (text : RawText)
  /-- Two hyphens alone, the first time. -/
  | separator
  /-- An option, with the value that is written in the same word. It is short if it was written with
  one hyphen and one letter. -/
  | option (flag : Flag) (short : Bool) (value : Option RawText)
  | unknown (text : RawText)
  deriving DecidableEq, Repr

structure Request where
  files : List RawText
  default : Option Dialect
  config : Option RawText
  deriving DecidableEq, Repr

namespace Word

/-- The parts of a word before and after its first sign of equality. -/
def assignment? (word : RawText) : Option (RawText × RawText) :=
  match word.dropWhile (· != .char '=') with
  | [] => none
  | _ :: value => some (word.takeWhile (· != .char '='), value)

def isShort (spelling : RawText) : Bool :=
  spelling.length == 2

def spelled? (word : RawText) (value : Option RawText) : Option Word :=
  (spellings.lookup word).map fun flag => .option flag (isShort word) value

/-- The options that a word may be short for, each with the value that the word then has. -/
def candidates (word : RawText) : List (RawText × Word) :=
  match word with
  | .char '-' :: .char '-' :: _ =>
    let (start, value) := match assignment? word with
      | some (start, value) => (start, some value)
      | none => (word, none)
    (spellings.filter fun s => start.isPrefixOf s.1).map fun s => (s.1, .option s.2 false value)
  | .char '-' :: letter :: value =>
    spellings.filterMap fun s =>
      if s.1 == [.char '-', letter] then some (s.1, .option s.2 true (some value))
      else if word.isPrefixOf s.1 then some (s.1, .option s.2 false none)
      else none
  | _ => []

def isDigit (point : CodePoint) : Bool :=
  point.char?.any Digit.isDigit

/-- A negative number is no option. A line end after it does not count. -/
def isNegativeNumber (word : RawText) : Bool :=
  match if word.getLast? == some (.char '\n') then word.dropLast else word with
  | .char '-' :: digits =>
    let whole := digits.takeWhile isDigit
    match digits.dropWhile isDigit with
    | [] => !whole.isEmpty
    | .char '.' :: part => !part.isEmpty && part.all isDigit
    | _ => false
  | _ => false

/-- The option that is written with its value, or for which a word is short. Otherwise a word with
a hyphen is an unknown option, unless it is a number or has a space in it. -/
def ofHyphened (word : RawText) : Except Misuse Word :=
  let assigned := (assignment? word).bind fun parts => spelled? parts.1 (some parts.2)
  match assigned, candidates word with
  | some flagged, _ => .ok flagged
  | none, [(_, flagged)] => .ok flagged
  | none, [] =>
    if isNegativeNumber word || word.contains (.char ' ') then .ok (.argument word)
    else .ok (.unknown word)
  | none, several => .error (.ambiguous word (several.map Prod.fst))

/-- What a word is, before two hyphens alone. -/
def ofText (text : RawText) : Except Misuse Word :=
  match text with
  | .char '-' :: _ :: _ =>
    match spelled? text none with
    | some flagged => .ok flagged
    | none => ofHyphened text
  | _ => .ok (.argument text)

def ofArguments : List RawText → Except Misuse (List Word)
  | [] => .ok []
  | text :: rest =>
    if text = "--" then .ok (.separator :: rest.map .argument)
    else do
      let word ← ofText text
      return word :: (← ofArguments rest)

end Word

structure Gathered where
  /-- The build files, and the separator where it is among them. -/
  files : Option (List RawText)
  /-- Whether more words may belong to them. -/
  growing : Bool
  /-- The values of the two options, if they were given. Two hyphens alone are no value. -/
  default : Option (Option Dialect)
  config : Option (Option RawText)
  extras : List RawText
  deriving DecidableEq, Repr

namespace Gathered

def empty : Gathered := ⟨none, false, none, none, []⟩

/-- Takes a word that is no option: one of the build files, or one too many. -/
def take (g : Gathered) (text : RawText) : Gathered :=
  match g.files with
  | none => { g with files := some [text], growing := true }
  | some files =>
    if g.growing then { g with files := some (files ++ [text]) }
    else { g with extras := g.extras ++ [text] }

def assign (g : Gathered) (flag : Flag) (value : RawText) : Except Misuse Gathered :=
  let g := { g with growing := false }
  match flag with
  | .help => .error (.uselessValue .help value)
  | .default =>
    let dialect := if value == "--" then none else value.string?.bind Dialect.ofName?
    if dialect.isNone && value != "--" then .error (.noChoice value)
    else if g.config.isSome then .error (.conflict .default .config)
    else .ok { g with default := some dialect }
  | .config =>
    if g.default.isSome then .error (.conflict .config .default)
    else .ok { g with config := some (if value == "--" then none else some value) }

/-- What a value right after the letter for help comes to. More options may be written in a row
there, of which only help is one letter long; there has to be something in it. -/
def helpWith (value : RawText) : Halt :=
  match value.dropWhile (· == .char 'h') with
  | [] => if value.isEmpty then .misuse (.uselessValue .help "") else .help
  | rest => .misuse (.uselessValue .help rest)

def gather (g : Gathered) : List Word → Except Halt Gathered
  | [] => .ok g
  | .argument text :: rest => gather (g.take text) rest
  | .separator :: rest =>
    if g.files.isNone && rest.isEmpty then
      gather { g with extras := g.extras ++ [RawText.ofString "--"] } rest
    else gather (g.take "--") rest
  | .unknown text :: rest => gather { g with growing := false, extras := g.extras ++ [text] } rest
  | .option .help _ none :: _ => .error .help
  | .option .help true (some letters) :: _ => .error (helpWith letters)
  | .option flag _ (some value) :: rest =>
    match g.assign flag value with
    | .error misuse => .error (.misuse misuse)
    | .ok g => gather g rest
  | .option flag _ none :: .argument value :: rest =>
    match g.assign flag value with
    | .error misuse => .error (.misuse misuse)
    | .ok g => gather g rest
  | .option flag _ none :: _ => .error (.misuse (.valueMissing flag))

def request (g : Gathered) : Except Misuse Request :=
  match g.files with
  | none => .error .filesMissing
  | some files =>
    if g.extras.isEmpty then .ok ⟨files.erase "--", g.default.join, g.config.join⟩
    else .error (.unrecognized g.extras)

end Gathered

def Request.ofArguments (arguments : List RawText) : Except Halt Request :=
  match Word.ofArguments arguments with
  | .error misuse => .error (.misuse misuse)
  | .ok words =>
    match Gathered.empty.gather words with
    | .error halt => .error halt
    | .ok gathered =>
      match gathered.request with
      | .error misuse => .error (.misuse misuse)
      | .ok request => .ok request

end BuildDialect.Report
