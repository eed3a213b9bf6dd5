import BuildDialect.Text.Decimal
import BuildDialect.Text.Digit
import BuildDialect.Text.Lowercase
import BuildDialect.Text.Split
import BuildDialect.Value
import BuildDialect.Yaml.Node
import BuildDialect.Yaml.Stamp

/-! The values of scalars, read as the type that their tag gives. -/
namespace BuildDialect.Yaml.Scalar

def isWideBlank (c : Char) : Bool :=
  c == '\x85' || c == '\xa0' || c == '\u1680' || decide ('\u2000' ≤ c ∧ c ≤ '\u200a') ||
    c == '\u2028' || c == '\u2029' || c == '\u202f' || c == '\u205f' || c == '\u3000'

/-- The ASCII character that a code point counts as in a number. Digits of all scripts are digits,
and wide blanks are spaces; all else beyond ASCII counts as a character that no number has. -/
def plainChar : CodePoint → Char
  | .half _ => '?'
  | .char c =>
    if c.toNat < 0x80 then c
    else if isWideBlank c then ' '
    else match Digit.value? c with
      | some n => Nat.digitChar n
      | none => '?'

def isBlank (c : Char) : Bool :=
  c == ' ' || decide ('\t' ≤ c ∧ c ≤ '\x0d')

def plainText (text : RawText) : List Char :=
  (((text.map plainChar).dropWhile isBlank).reverse.dropWhile isBlank).reverse

def digitOf? (base : Nat) (c : Char) : Option Nat :=
  (if c.isDigit then some (c.toNat - '0'.toNat)
    else if 'a' ≤ c ∧ c ≤ 'f' then some (c.toNat - 'a'.toNat + 10)
    else if 'A' ≤ c ∧ c ≤ 'F' then some (c.toNat - 'A'.toNat + 10)
    else none).filter fun n => decide (n < base)

/-- The digits of an integer, which may have the mark of its base before them. -/
def digitsOf (base : Nat) (text : List Char) : List Char :=
  match text with
  | '0' :: mark :: rest =>
    if (base == 2 && (mark == 'b' || mark == 'B')) || (base == 8 && (mark == 'o' || mark == 'O')) ||
        (base == 16 && (mark == 'x' || mark == 'X')) then rest
    else text
  | _ => text

/-- The integer in a base that a text is. Only decimal ones are limited in length. -/
def integerIn (base : Nat) (text : RawText) : Except Fault Int :=
  let (negative, unsigned) := Decimal.unsigned (plainText text)
  let written := digitsOf base unsigned
  let digits := (written.map (digitOf? base)).takeWhile Option.isSome
  if base == 10 && decide (Count.digitLimit < digits.length) then .error (.digits digits.length)
  else if digits.isEmpty || digits.length < written.length then .error (.integer base text)
  else .ok (Double.signed negative
    (digits.foldl (fun n (digit : Option Nat) => base * n + digit.getD 0) 0))

def realOf (text : RawText) : Except Fault Double :=
  match Decimal.read? (plainText text) with
  | some x => .ok x
  | none => .error (.real text)

def truthWords : List (String × Bool) :=
  [("yes", true), ("no", false), ("true", true), ("false", false), ("on", true), ("off", false)]

def truth (text : RawText) : Except Fault Scalar :=
  let lower := Lowercase.lower text
  match lower.string?.bind fun word => truthWords.lookup word with
  | some value => .ok (.truth value)
  | none => .error (.truth lower)

def unsigned : RawText → Bool × RawText
  | .char '-' :: rest => (true, rest)
  | .char '+' :: rest => (false, rest)
  | text => (false, text)

/-- The number that places in base sixty make up, after what the first ones do. -/
def sixtieths (value : Int) : List Int → Int
  | [] => value
  | place :: rest => sixtieths (60 * value + place) rest

def integer (text : RawText) : Except Fault Scalar := do
  let (negative, text) := unsigned (text.filter (· != .char '_'))
  let size ← match text with
    | [] => .error .blankNumber
    | [.char '0'] => .ok 0
    | .char '0' :: .char 'b' :: digits => integerIn 2 digits
    | .char '0' :: .char 'x' :: digits => integerIn 16 digits
    | .char '0' :: _ => integerIn 8 text
    | _ => do
      let places ← (stretches (.char ':') text).mapM (integerIn 10)
      .ok (sixtieths 0 places)
  return .integer (if negative then -size else size)

/-- The sum of places in base sixty, the last place first, each times its base. -/
def sixtiethSum (sum : Double) (base : Int) : List Double → Except Fault Double
  | [] => .ok sum
  | place :: rest =>
    match Double.ofInt? base with
    | none => .error .size
    | some factor => sixtiethSum (sum.add (place.mul factor)) (60 * base) rest

/-- What has no value comes from its own node. -/
def withOrigin (place : Nat) : Double → Double
  | .undefined _ => .undefined (some place)
  | x => x

/-- Reads a real number. Underscores and case do not count. All that are written with the word for
no number have one origin. -/
def real (place : Nat) (text : RawText) : Except Fault Scalar := do
  let text := Lowercase.lower (text.filter (· != .char '_'))
  if text.isEmpty then throw .blankNumber
  let (negative, text) := unsigned text
  if text == RawText.ofString ".inf" then return .real (.infinite negative)
  else if text == RawText.ofString ".nan" then return .real (.undefined none)
  else
    let size ←
      if text.contains (.char ':') then do
        let places ← (stretches (.char ':') text).mapM realOf
        sixtiethSum (.finite false 0 Double.leastExponent) 1 places.reverse
      else realOf text
    return .real (withOrigin place (if negative then size.neg else size))

/-- Reads a date or a time. A line end at the very end does not count. -/
def moment (text : RawText) : Except Fault Scalar := do
  let some chars := text.mapM CodePoint.char? | throw .stamp
  let chars := if chars.getLast? == some '\n' then chars.dropLast else chars
  let some stamp := Stamp.ofText? chars | throw .stamp
  if let some fault := stamp.fault? then throw fault
  match stamp.time with
  | none => return .date stamp.day
  | some time => return .moment stamp.day time

def base64Digit? (c : Char) : Option Nat :=
  if 'A' ≤ c ∧ c ≤ 'Z' then some (c.toNat - 'A'.toNat)
  else if 'a' ≤ c ∧ c ≤ 'z' then some (c.toNat - 'a'.toNat + 26)
  else if c.isDigit then some (c.toNat - '0'.toNat + 52)
  else if c = '+' then some 62
  else if c = '/' then some 63
  else none

/-- The bytes of digits in base sixty-four, if they are complete. `filled` digits of a group of four
are read, of which the last left `bits`, and `pads` signs of padding; other characters are passed
over. -/
def base64? (filled bits pads : Nat) : List Char → Option (List UInt8)
  | [] => if filled = 0 then some [] else none
  | c :: rest =>
    if c = '=' then
      if 2 ≤ filled ∧ 4 ≤ filled + pads + 1 then some []
      else base64? filled bits (if 2 ≤ filled then pads + 1 else pads) rest
    else match base64Digit? c with
      | none => base64? filled bits pads rest
      | some digit =>
        match filled with
        | 0 => base64? 1 digit 0 rest
        | 1 => (base64? 2 (digit % 16) 0 rest).map (UInt8.ofNat (bits * 4 + digit / 16) :: ·)
        | 2 => (base64? 3 (digit % 4) 0 rest).map (UInt8.ofNat (bits * 16 + digit / 4) :: ·)
        | _ => (base64? 0 0 0 rest).map (UInt8.ofNat (bits * 64 + digit) :: ·)

def binary (text : RawText) : Except Fault Scalar :=
  match text.mapM CodePoint.char? with
  | some chars =>
    if chars.all fun c => decide (c.toNat < 0x80) then
      match base64? 0 0 0 chars with
      | some bytes => .ok (.bytes bytes)
      | none => .error .construction
    else .error .construction
  | none => .error .construction

def read (place : Nat) (tag : Tag) (text : RawText) : Except Fault Value :=
  match tag with
  | .null => .ok (.scalar .nothing)
  | .truth => (truth text).map .scalar
  | .integer => (integer text).map .scalar
  | .real => (real place text).map .scalar
  | .binary => (binary text).map .scalar
  | .moment => (moment text).map .scalar
  | .text => .ok (.text text)
  | _ => .error .construction

end BuildDialect.Yaml.Scalar
