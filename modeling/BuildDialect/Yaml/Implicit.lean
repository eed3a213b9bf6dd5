import BuildDialect.Text.Split
import BuildDialect.Yaml.Node
import BuildDialect.Yaml.Stamp

/-! The types of plain scalars, which follow from how they are written. -/
namespace BuildDialect.Yaml.Implicit

def isDigitOrLine (c : Char) : Bool :=
  c.isDigit || c == '_'

def afterSign : List Char → List Char
  | '+' :: rest => rest
  | '-' :: rest => rest
  | text => text

def isDigits : List Char → Bool
  | [] => false
  | c :: rest => c.isDigit && rest.all isDigitOrLine

/-- A place of a number in base sixty: one digit, or two below sixty. -/
def isSixtieth : List Char → Bool
  | [a] => a.isDigit
  | [a, b] => decide ('0' ≤ a ∧ a ≤ '5') && b.isDigit
  | _ => false

def isExponent : List Char → Bool
  | [] => true
  | e :: sign :: digits =>
    (e == 'e' || e == 'E') && (sign == '+' || sign == '-') && !digits.isEmpty &&
      digits.all Char.isDigit
  | _ => false

def isTruth (text : List Char) : Bool :=
  ["yes", "Yes", "YES", "no", "No", "NO", "true", "True", "TRUE", "false", "False", "FALSE",
    "on", "On", "ON", "off", "Off", "OFF"].contains (String.ofList text)

def isNull (text : List Char) : Bool :=
  ["", "~", "null", "Null", "NULL"].contains (String.ofList text)

/-- Integers: binary, octal, decimal, hexadecimal or in base sixty. -/
def isInteger (text : List Char) : Bool :=
  match afterSign text with
  | '0' :: 'b' :: digits => !digits.isEmpty && digits.all fun c => c == '0' || c == '1' || c == '_'
  | '0' :: 'x' :: digits =>
    !digits.isEmpty && digits.all fun c =>
      c.isDigit || decide ('a' ≤ c ∧ c ≤ 'f') || decide ('A' ≤ c ∧ c ≤ 'F') || c == '_'
  | '0' :: digits => digits.all fun c => decide ('0' ≤ c ∧ c ≤ '7') || c == '_'
  | unsigned =>
    match stretches ':' unsigned with
    | first :: others => isDigits first && others.all isSixtieth
    | [] => false

/-- Real numbers: with a point, in base sixty, or the words for infinity and no number. -/
def isReal (text : List Char) : Bool :=
  let unsigned := afterSign text
  let whole := unsigned.takeWhile (· != '.')
  match unsigned.dropWhile (· != '.') with
  | [] => false
  | _ :: after =>
    let exponent := after.dropWhile isDigitOrLine
    if whole.isEmpty then
      ["inf", "Inf", "INF"].contains (String.ofList after) ||
        (text.head? == some '.' &&
          (["nan", "NaN", "NAN"].contains (String.ofList after) ||
            (after.head?.any Char.isDigit && isExponent exponent)))
    else match stretches ':' whole with
      | [digits] => isDigits digits && isExponent exponent
      | first :: others => isDigits first && others.all isSixtieth && exponent.isEmpty
      | [] => false

/-- Times: a date of ten characters, or a date with a time. -/
def isMoment (text : List Char) : Bool :=
  match Stamp.ofText? text with
  | none => false
  | some stamp => stamp.time.isSome || text.length == 10

/-- The type of characters by how they are written. A line end at the very end does not count. -/
def tagOfChars (chars : List Char) : Tag :=
  if chars.head? == some '\n' then .text
  else
    let chars := if chars.getLast? == some '\n' then chars.dropLast else chars
    if isTruth chars then .truth
    else if isReal chars then .real
    else if isInteger chars then .integer
    else if chars == ['<', '<'] then .merge
    else if isNull chars then .null
    else if isMoment chars then .moment
    else if chars == ['='] then .value
    else if [['!'], ['&'], ['*']].contains chars then .foreign (Tag.common ++ "yaml")
    else .text

def tagOf (text : RawText) : Tag :=
  match text.mapM CodePoint.char? with
  | some chars => tagOfChars chars
  | none => .text

end BuildDialect.Yaml.Implicit
