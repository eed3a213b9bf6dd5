import BuildDialect.Count
import BuildDialect.Text.Utf8
import BuildDialect.Yaml.Cursor
import BuildDialect.Yaml.Token

/-! Anchors, tags and directives: the words that say something about a node or a document. -/
namespace BuildDialect.Yaml.Reader

def anchorName : Reader String := do
  advance 1
  let name ← takeWhile isNameChar
  let next ← peek
  let closed := endsIndicator next || next.any fun c => "?:,]\x7d%@\x60".toList.contains c
  expect (!name.isEmpty && closed)
  return String.ofList name

/-- The handle of a tag: one exclamation mark, or two with a name between them. -/
def tagHandle : Reader String := do
  expect ((← peek) == some '!')
  advance 1
  if (← peek) == some ' ' then return "!"
  else
    let name ← takeWhile isNameChar
    expect ((← peek) == some '!')
    advance 1
    return String.ofList ('!' :: name ++ ['!'])

def isTagChar (c : Char) : Bool :=
  c.isAlphanum || "-;/?:@&=+$,_.!~*\x27()[]".toList.contains c

/-- The bytes that are written as escapes in a row. An escape without its two digits is a fault. -/
def escapedBytes : Nat → Reader (List UInt8)
  | 0 => throw .token
  | fuel + 1 => do
    if (← peek) != some '%' then return []
    advance 1
    match (← peek).bind hexDigit? with
    | none => throw .token
    | some high =>
      match (← peekAt 1).bind hexDigit? with
      | none => throw .token
      | some low =>
        advance 2
        return UInt8.ofNat (16 * high + low) :: (← escapedBytes fuel)

/-- The rest of a tag, after what is already read. A run of escapes has to be UTF-8. -/
def tagTextAfter (read : List Char) : Nat → Reader (List Char)
  | 0 => throw .token
  | fuel + 1 => do
    let read := read ++ (← takeWhile isTagChar)
    if (← peek) == some '%' then
      match Utf8.decode? (← escapedBytes (fuel + 1)) with
      | none => throw .token
      | some text => tagTextAfter (read ++ text) fuel
    else return read

def tagText : Reader String := do
  let before := (← get).rest.length
  let text ← tagTextAfter [] (before + 1)
  expect ((← get).rest.length < before)
  return String.ofList text

def hasHandle : Reader Bool := do
  let before := ((← get).rest.drop 1).takeWhile fun c => !endsWord (some c) && c != '!'
  return (← peekAt (before.length + 1)) == some '!'

/-- A tag in angle brackets, which is in full. -/
def fullTag : Reader Token := do
  advance 2
  let suffix ← tagText
  expect ((← peek) == some '>')
  advance 1
  return .tag none suffix

/-- A tag after a handle, which is the mark alone if there is no other. -/
def handledTag : Reader Token := do
  if ← hasHandle then
    let handle ← tagHandle
    return .tag (some handle) (← tagText)
  else
    advance 1
    return .tag (some "!") (← tagText)

def markTag : Reader Token := do
  advance 1
  return .tag none "!"

def tag : Reader Token := do
  let second ← peekAt 1
  let token ←
    if second == some '<' then fullTag
    else if endsIndicator second then markTag
    else handledTag
  expect (endsWord (← peek))
  return token

def versionNumber : Reader Nat := do
  let digits ← takeWhile Char.isDigit
  expect !digits.isEmpty
  if Count.digitLimit < digits.length then throw (.digits digits.length)
  return Nat.ofDigitChars 10 digits 0

def versionDirective : Reader Directive := do
  skipWhile (· == ' ')
  let major ← versionNumber
  expect ((← peek) == some '.')
  advance 1
  let minor ← versionNumber
  expect (endsWord (← peek))
  return .version major minor

def handleDirective : Reader Directive := do
  skipWhile (· == ' ')
  let handle ← tagHandle
  expect ((← peek) == some ' ')
  skipWhile (· == ' ')
  let stem ← tagText
  expect (endsWord (← peek))
  return .handle handle stem

def directive : Reader Token := do
  advance 1
  let name ← takeWhile isNameChar
  expect (!name.isEmpty && endsWord (← peek))
  let directive ←
    if name == "YAML".toList then versionDirective
    else if name == "TAG".toList then handleDirective
    else do
      skipWhile fun c => !isBreak c
      pure Directive.other
  lineEnd
  return .directive directive

end BuildDialect.Yaml.Reader
