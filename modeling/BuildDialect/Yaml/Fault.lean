import BuildDialect.Calendar
import BuildDialect.Count
import BuildDialect.Text.Quoted

/-! Why a YAML text has no value. -/
namespace BuildDialect.Yaml

inductive Fault where
  /-- The bytes are not UTF-8. -/
  | encoding
  /-- A character that no YAML text may hold. -/
  | unprintable
  /-- The characters do not form tokens. -/
  | token
  /-- The tokens do not form a document. -/
  | grammar
  /-- An alias without anchor, an anchor given twice, or a second document. -/
  | reference
  /-- A node that its tag cannot describe. -/
  | construction
  /-- Nodes that are nested too deep, or without end. -/
  | depth
  /-- A truth value that is none of the known words. -/
  | truth (text : RawText)
  /-- A number without any text. -/
  | blankNumber
  /-- A text that is no integer in a base. -/
  | integer (base : Nat) (text : RawText)
  /-- A decimal integer with too many digits. -/
  | digits (count : Nat)
  /-- A text that is no real number. -/
  | real (text : RawText)
  /-- A place in base sixty that is too large for a real number. -/
  | size
  /-- A time stamp that has not the form of one. -/
  | stamp
  /-- A time stamp that is a mapping. -/
  | stampMapping
  /-- A part of a time stamp that is out of range. -/
  | range (part : TimePart)
  /-- A time zone that is a day or more ahead or behind, in minutes. -/
  | zone (minutes : Int)
  /-- An escape for a number that is no code point. -/
  | codePoint
  /-- An escape for a number that no machine word holds. -/
  | codeWord
  deriving DecidableEq, Repr

namespace Fault

def name : Fault → String
  | .encoding => "UnicodeDecodeError"
  | .unprintable => "ReaderError"
  | .token => "ScannerError"
  | .grammar => "ParserError"
  | .reference => "ComposerError"
  | .construction => "ConstructorError"
  | .depth => "RecursionError"
  | .truth _ => "KeyError"
  | .blankNumber => "IndexError"
  | .stamp => "AttributeError"
  | .stampMapping => "TypeError"
  | .codeWord | .size => "OverflowError"
  | .integer .. | .digits _ | .real _ | .range _ | .zone _ | .codePoint => "ValueError"

/-- The message about a part of a day or a time that is out of range. Only the year zero is. -/
def rangeMessage : TimePart → String
  | .year => "year 0 is out of range"
  | .month => "month must be in 1..12"
  | .day => "day is out of range for month"
  | .hour => "hour must be in 0..23"
  | .minute => "minute must be in 0..59"
  | .second => "second must be in 0..59"

/-- How a message shows a duration: in days and seconds, of which only the days can be negative. -/
def durationShown (minutes : Int) : String :=
  let days := minutes.fdiv (24 * 60)
  let seconds := 60 * minutes.fmod (24 * 60)
  let parts := (if days = 0 then [] else [s!"days={days}"]) ++
    (if seconds = 0 then [] else [s!"seconds={seconds}"])
  "datetime.timedelta(" ++ (if parts.isEmpty then "0" else ", ".intercalate parts) ++ ")"

/-- How many characters of a text a message about an integer shows, with its quote marks. -/
def shownLength : Nat := 200

def message : Fault → String
  | .depth => "maximum recursion depth exceeded"
  | .truth text => Quoted.quoteRaw text
  | .blankNumber => "string index out of range"
  | .integer base text =>
    s!"invalid literal for int() with base {base}: " ++
      String.ofList ((Quoted.quoteRaw text).toList.take shownLength)
  | .digits count => (CountFault.longText count).message
  | .real text => "could not convert string to float: " ++ Quoted.quoteRaw text
  | .size => "int too large to convert to float"
  | .stamp => "\x27NoneType\x27 object has no attribute \x27groupdict\x27"
  | .stampMapping => "expected string or bytes-like object, got \x27list\x27"
  | .range part => rangeMessage part
  | .zone minutes =>
    "offset must be a timedelta strictly between -timedelta(hours=24) and timedelta(hours=24), " ++
      s!"not {durationShown minutes}."
  | .codePoint => "chr() arg not in range(0x110000)"
  | .codeWord => "Python int too large to convert to C int"
  | _ => ""

end Fault
end BuildDialect.Yaml
