import BuildDialect.Text.Line
import BuildDialect.Text.Utf8
import BuildDialect.Yaml.Fault

/-!
How a text is taken in. Bytes are decoded by portions, and characters are taken in by blocks, as
far as they are needed: what is wrong with a text further on is not noticed before. The first two
blocks are taken in together.
-/
namespace BuildDialect.Yaml

def isAllowed (c : Char) : Bool :=
  c == '\t' || c == '\n' || c == '\x0d' || decide (' ' ≤ c ∧ c ≤ '~') || c == '\x85' ||
    decide ('\xa0' ≤ c ∧ c ≤ '\uD7FF') || decide ('\uE000' ≤ c ∧ c ≤ '\uFFFD') ||
    decide (0x10000 ≤ c.toNat)

structure Intake where
  /-- The characters, at least as many as can be looked at. -/
  text : List Char
  /-- How many characters can be looked at, and the fault that is met when more are needed. -/
  limit : Option (Nat × Fault)
  deriving DecidableEq, Repr

namespace Intake

def blockSize : Nat := 4096

/-- The number of bytes in a portion, unless more are expected to be needed for a block. -/
def portionSize : Nat := 8192

/-- How many characters can be looked at if a block cannot be taken in. -/
def soundBefore (block : Nat) : Nat :=
  if block < 2 then 0 else block * blockSize

/-- The number of the first byte that shows that bytes are not UTF-8, after so many bytes. A second
byte that would make half of a surrogate pair shows it only with the byte after it, and the end of
the bytes counts as one. -/
def firstBad? (seen : Nat) : Utf8.Progress → List UInt8 → Option Nat
  | .between, [] => none
  | .inside .., [] => some seen
  | p, b :: rest =>
    let (pieces, next) := p.step b
    if pieces.contains none then
      if p == .inside 0xD 0x80 0x9F 1 && decide (0xA0 ≤ b ∧ b ≤ 0xBF) then some (seen + 1)
      else some seen
    else firstBad? (seen + 1) next rest

def wellFormed (bytes : List UInt8) : List Char :=
  ((Utf8.pieces bytes).takeWhile Option.isSome).filterMap id

/-- How many characters a number of bytes gives. A carriage return at their end waits for what
follows it. -/
def countOf (bytes : List UInt8) (taken : Nat) : Nat :=
  let chars := wellFormed (bytes.take taken)
  let complete := if chars.getLast? == some '\r' then chars.dropLast else chars
  (Line.unify complete).length

/-- How many bytes are taken at once when so many characters are missing. The last portion, of so
many bytes and characters, tells how many bytes a character needs. -/
def nextPortion (missing bytes chars : Nat) : Nat :=
  max portionSize (if chars < bytes then missing * bytes / chars else missing)

/-- The block that cannot be taken in because of a bad byte. So many bytes and characters were
taken before, the last of them in a portion. -/
def failingBlock (bytes : List UInt8) (bad : Nat) (taken chars lastBytes lastChars : Nat) :
    Nat → Nat → Nat
  | 0, block => block
  | fuel + 1, block =>
    if (block + 1) * blockSize ≤ chars then
      failingBlock bytes bad taken chars lastBytes lastChars fuel (block + 1)
    else
      let missing := (block + 1) * blockSize - chars
      let size := nextPortion missing lastBytes lastChars
      let after := min (taken + size) bytes.length
      if bad < after || taken == bytes.length then block
      else
        let count := countOf bytes after
        failingBlock bytes bad after count (after - taken) (count - chars) fuel block

def ofBad (bytes : List UInt8) (bad : Nat) : Intake :=
  let text := Line.unify (wellFormed bytes)
  let block := failingBlock bytes bad 0 0 0 0 (bytes.length + 2) 0
  match text.findIdx? fun c => !isAllowed c with
  | some index =>
    if soundBefore (index / blockSize) < soundBefore block then
      ⟨text, some (soundBefore (index / blockSize), .unprintable)⟩
    else ⟨text, some (soundBefore block, .encoding)⟩
  | none => ⟨text, some (soundBefore block, .encoding)⟩

def ofText (text : List Char) : Intake :=
  match text.findIdx? fun c => !isAllowed c with
  | none => ⟨text, none⟩
  | some index => ⟨text, some (soundBefore (index / blockSize), .unprintable)⟩

def ofBytes (bytes : List UInt8) : Intake :=
  match Utf8.decode? bytes with
  | some text => ofText (Line.unify text)
  | none => ofBad bytes ((firstBad? 0 .between bytes).getD bytes.length)

end Intake
end BuildDialect.Yaml
