import BuildDialect.Yaml.Fault

/-! Dates and times as YAML texts have them. -/
namespace BuildDialect.Yaml

/-- A date, or a date with a time. Nothing says that there is such a day or such a time. -/
structure Stamp where
  day : Day
  time : Option TimeOfDay
  deriving DecidableEq, Repr

namespace Stamp

/-- The number that the digits at the start of a text make up, and the rest. There have to be at
least and at most so many digits. -/
def number? (least most : Nat) (text : List Char) : Option (Nat × List Char) :=
  let digits := (text.take most).takeWhile Char.isDigit
  if digits.length < least then none
  else some (Nat.ofDigitChars 10 digits 0, text.drop digits.length)

def after? (c : Char) : List Char → Option (List Char)
  | [] => none
  | d :: rest => if d = c then some rest else none

def isBlank (c : Char) : Bool :=
  c == ' ' || c == '\t'

/-- The zone of a time, which ends the text: a letter for the common one, or a distance. -/
def zone? : List Char → Option (Option Int)
  | [] => some none
  | text => do
    match text.dropWhile isBlank with
    | ['Z'] => some (some 0)
    | sign :: rest =>
      if sign = '+' ∨ sign = '-' then
        let (hours, rest) ← number? 1 2 rest
        let toward : Int := if sign = '-' then -1 else 1
        match rest with
        | [] => some (some (toward * (60 * hours)))
        | _ =>
          let (minutes, rest) ← number? 2 2 (← after? ':' rest)
          if rest.isEmpty then some (some (toward * (60 * hours + minutes))) else none
      else none
    | [] => none

/-- The microseconds that the digits after the point of a second make up. No more than six of them
count. -/
def microseconds (digits : List Char) : Nat :=
  let first := digits.take 6
  Nat.ofDigitChars 10 first 0 * Nat.pow 10 (6 - first.length)

/-- The time after a date: a letter or blanks, and then hours, minutes and seconds. -/
def time? (text : List Char) : Option TimeOfDay := do
  let text ← match text with
    | 'T' :: rest => some rest
    | 't' :: rest => some rest
    | c :: rest => if isBlank c then some (rest.dropWhile isBlank) else none
    | [] => none
  let (hour, text) ← number? 1 2 text
  let (minute, text) ← number? 2 2 (← after? ':' text)
  let (second, text) ← number? 2 2 (← after? ':' text)
  let (fraction, text) := match text with
    | '.' :: rest => (rest.takeWhile Char.isDigit, rest.dropWhile Char.isDigit)
    | rest => ([], rest)
  let offset ← zone? text
  return ⟨hour, minute, second, microseconds fraction, offset⟩

def ofText? (text : List Char) : Option Stamp := do
  let (year, text) ← number? 4 4 text
  let (month, text) ← number? 1 2 (← after? '-' text)
  let (day, text) ← number? 1 2 (← after? '-' text)
  match text with
  | [] => return ⟨⟨year, month, day⟩, none⟩
  | _ => return ⟨⟨year, month, day⟩, some (← time? text)⟩

def farZone? (stamp : Stamp) : Option Int :=
  (stamp.time.bind TimeOfDay.offset).filter fun minutes => decide (24 * 60 ≤ minutes.natAbs)

def fault? (stamp : Stamp) : Option Fault :=
  match stamp.farZone? with
  | some minutes => some (.zone minutes)
  | none => (stamp.day.misfit? <|> stamp.time.bind TimeOfDay.misfit?).map .range

end Stamp
end BuildDialect.Yaml
