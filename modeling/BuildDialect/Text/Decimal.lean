import BuildDialect.Double

/-!
Decimal text of numbers of double precision. A number is shown with the fewest digits that read
back as the same number, of which the nearest are taken, and positionally where the exponent is
between -4 and 15. Any decimal text reads as the number nearest to it.
-/
namespace BuildDialect.Decimal

/-- The digits of a number `digits · 10 ^ exponent`. -/
structure Digits where
  digits : Nat
  exponent : Int
  deriving DecidableEq, Repr

/-- Whether `digits · 10 ^ e` is nearer to a number than to any other one, or rounds to it. -/
def readsBack (mantissa : Nat) (exponent : Int) (digits : Nat) (e : Int) : Bool :=
  let (num, den) := Double.scale 10 digits e
  Double.ofFraction false num den == .finite false mantissa exponent

/-- How far `digits · 10 ^ e` is from a number, in some unit. -/
def distance (mantissa : Nat) (exponent : Int) (digits : Nat) (e : Int) : Nat :=
  let (num, den) := Double.scale 2 mantissa exponent
  let (n, d) := Double.scale 10 digits e
  ((num * d : Int) - n * den).natAbs

/-- The greatest multiple of `10 ^ e` that is at most a number. -/
def below (mantissa : Nat) (exponent : Int) (e : Int) : Nat :=
  let (num, den) := Double.scale 2 mantissa exponent
  let (n, d) := Double.scale 10 1 e
  num * d / (den * n)

/-- The multiple of `10 ^ e` that reads back, if there is one. It is one of the two neighbours of
the number: the nearer one, or the even one where both are as near. -/
def readable? (mantissa : Nat) (exponent : Int) (e : Int) : Option Nat :=
  let low := below mantissa exponent e
  let high := low + 1
  let far := distance mantissa exponent
  match readsBack mantissa exponent low e, readsBack mantissa exponent high e with
  | true, true =>
    if far low e < far high e then some low
    else if far high e < far low e then some high
    else some (low + low % 2)
  | true, false => some low
  | false, true => some high
  | false, false => none

/-- The decimal exponent of the first digit: the largest `k` with `10 ^ k` at most the number,
searched downwards from a bound. -/
def leading (mantissa : Nat) (exponent : Int) : Nat → Int → Int
  | 0, k => k
  | fuel + 1, k =>
    if below mantissa exponent k = 0 then leading mantissa exponent fuel (k - 1) else k

def search (mantissa : Nat) (exponent first : Int) : Nat → Nat → Digits
  | 0, count => ⟨below mantissa exponent (first - count), first - count⟩
  | fuel + 1, count =>
    match readable? mantissa exponent (first - count) with
    | some digits => ⟨digits, first - count⟩
    | none => search mantissa exponent first fuel (count + 1)

/-- The fewest digits that read back. Seventeen always do. -/
def shortest (mantissa : Nat) (exponent : Int) : Digits :=
  search mantissa exponent (leading mantissa exponent 640 309) 17 0

/-- Digits without the zeros at their end, and the exponent that makes up for them. -/
def strip : Nat → Digits → Digits
  | 0, d => d
  | fuel + 1, d =>
    if d.digits % 10 = 0 then strip fuel ⟨d.digits / 10, d.exponent + 1⟩ else d

/-- The text of digits: positional for moderate exponents, else with one digit before the point. -/
def layout (d : Digits) : String :=
  let text := Nat.toDigits 10 d.digits
  let point := text.length + d.exponent
  if -4 < point ∧ point ≤ 16 then
    if point ≤ 0 then
      "0." ++ String.ofList (List.replicate (-point).toNat '0' ++ text)
    else if point.toNat < text.length then
      String.ofList (text.take point.toNat ++ '.' :: text.drop point.toNat)
    else
      String.ofList (text ++ List.replicate (point.toNat - text.length) '0') ++ ".0"
  else
    let power := point - 1
    let size := Nat.toDigits 10 power.natAbs
    let size := if size.length < 2 then '0' :: size else size
    let tail := match text with
      | first :: second :: rest => first :: '.' :: second :: rest
      | short => short
    String.ofList (tail ++ 'e' :: (if power < 0 then '-' else '+') :: size)

def shown : Double → String
  | .undefined _ => "nan"
  | .infinite negative => (if negative then "-" else "") ++ "inf"
  | .finite negative mantissa exponent =>
    (if negative then "-" else "") ++
      if mantissa = 0 then "0.0" else layout (strip 400 (shortest mantissa exponent))

/-- A text without the sign that it may start with, and whether that was a minus. -/
def unsigned : List Char → Bool × List Char
  | '-' :: rest => (true, rest)
  | '+' :: rest => (false, rest)
  | text => (false, text)

def ofDigits (digits : List Char) : Nat :=
  Nat.ofDigitChars 10 digits 0

/-- The number nearest to `digits · 10 ^ exponent`. Where the exponent alone decides, the digits are
not looked at. -/
def nearest (negative : Bool) (digits : List Char) (exponent : Int) : Double :=
  let digits := digits.dropWhile (· == '0')
  let point := digits.length + exponent
  if digits.isEmpty || point < -400 then .finite negative 0 Double.leastExponent
  else if 400 < point then .infinite negative
  else
    let (num, den) := Double.scale 10 (ofDigits digits) exponent
    Double.ofFraction negative num den

def exponent? : List Char → Option Int
  | [] => some 0
  | 'e' :: rest =>
    let (negative, digits) := unsigned rest
    if !digits.isEmpty && digits.all Char.isDigit then
      some (Double.signed negative (ofDigits digits))
    else none
  | _ => none

/-- Reads a number in lower case: digits with a point and an exponent, or a word. -/
def read? (text : List Char) : Option Double :=
  let (negative, text) := unsigned text
  if ["inf", "infinity"].contains (String.ofList text) then some (.infinite negative)
  else if String.ofList text == "nan" then some (.undefined none)
  else
    let whole := text.takeWhile Char.isDigit
    let (part, rest) := match text.dropWhile Char.isDigit with
      | '.' :: after => (after.takeWhile Char.isDigit, after.dropWhile Char.isDigit)
      | rest => ([], rest)
    match exponent? rest with
    | some exponent =>
      if whole.isEmpty && part.isEmpty then none
      else some (nearest negative (whole ++ part) (exponent - part.length))
    | none => none

end BuildDialect.Decimal
