import BuildDialect.Text.CodePoint
import BuildDialect.Text.Printable

/-!
Texts between quote marks. A quoted text has no line end and no character that cannot be shown:
those are written as escapes.
-/
namespace BuildDialect

namespace Quoted

/-- The mark that is used unless it would have to be escaped and the other would not. -/
def single : Char := '\x27'

def double : Char := '\x22'

def markFor (text : RawText) : Char :=
  if text.contains (.char single) && !text.contains (.char double) then double else single

/-- The digits of a number in base sixteen, with leading zeros up to a width. -/
def hex (width n : Nat) : List Char :=
  let digits := Nat.toDigits 16 n
  List.replicate (width - digits.length) '0' ++ digits

def escape (mark c : Char) : List Char :=
  if c = mark || c = '\\' then ['\\', c]
  else if c = '\t' then ['\\', 't']
  else if c = '\n' then ['\\', 'n']
  else if c = '\r' then ['\\', 'r']
  else if Printable.isPrintable c then [c]
  else if c.toNat < 0x100 then '\\' :: 'x' :: hex 2 c.toNat
  else if c.toNat < 0x10000 then '\\' :: 'u' :: hex 4 c.toNat
  else '\\' :: 'U' :: hex 8 c.toNat

def escapePoint (mark : Char) : CodePoint → List Char
  | .char c => escape mark c
  | point => '\\' :: 'u' :: hex 4 point.toNat

def quoteRaw (text : RawText) : String :=
  let mark := markFor text
  String.ofList (mark :: text.flatMap (escapePoint mark) ++ [mark])

def quote (text : String) : String :=
  quoteRaw (.ofString text)

def listing (texts : List String) : String :=
  "[" ++ ", ".intercalate (texts.map quote) ++ "]"

end Quoted

namespace RawText

/-- The first point of a text that is bad: the point, how many precede it, and how many halves of
surrogate pairs there are in a row from it on. -/
def firstBad? (isBad : CodePoint → Bool) (text : RawText) : Option (CodePoint × Nat × Nat) :=
  match text.span fun point => !isBad point with
  | (_, []) => none
  | (before, point :: rest) =>
    some (point, before.length, (rest.takeWhile CodePoint.isHalf).length + 1)

/-- The message about a text that cannot be written in UTF-8 for some points in it. -/
def unwritableMessage (isBad : CodePoint → Bool) (text : RawText) : String :=
  match text.firstBad? isBad with
  | none => ""
  | some (point, first, 1) =>
    s!"\x27utf-8\x27 codec can\x27t encode character {Quoted.quoteRaw [point]} in position " ++
      s!"{first}: surrogates not allowed"
  | some (_, first, count) =>
    s!"\x27utf-8\x27 codec can\x27t encode characters in position {first}-{first + count - 1}: " ++
      "surrogates not allowed"

end RawText
end BuildDialect
