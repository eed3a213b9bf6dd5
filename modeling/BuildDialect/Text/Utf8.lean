/-!
UTF-8 text. Decoding reads any byte sequence: what is malformed is cut into its maximal
well-begun pieces, and each piece stands for one replacement character.
-/
namespace BuildDialect.Utf8

def replacement : Char := '\uFFFD'

/-- Where a decoder stands between two bytes. -/
inductive Progress where
  /-- Between two characters. -/
  | between
  /-- Inside a character: the bits read so far, the bounds of the next byte, and how many bytes
  follow that one. -/
  | inside (bits : Nat) (low high : UInt8) (more : Nat)
  deriving DecidableEq, Repr

/-- What is read so far and where it leaves the decoder. A malformed piece is `none`. -/
abbrev Step := List (Option Char) × Progress

/-- A byte at the start of a character. Surrogates, overlong forms and values above `10FFFF`
are excluded by the bounds on the second byte. -/
def enter (b : UInt8) : Step :=
  if b < 0x80 then ([some (Char.ofNat b.toNat)], .between)
  else if b < 0xC2 then ([none], .between)
  else if b < 0xE0 then ([], .inside (b.toNat - 0xC0) 0x80 0xBF 0)
  else if b = 0xE0 then ([], .inside 0 0xA0 0xBF 1)
  else if b = 0xED then ([], .inside 0xD 0x80 0x9F 1)
  else if b < 0xF0 then ([], .inside (b.toNat - 0xE0) 0x80 0xBF 1)
  else if b = 0xF0 then ([], .inside 0 0x90 0xBF 2)
  else if b < 0xF4 then ([], .inside (b.toNat - 0xF0) 0x80 0xBF 2)
  else if b = 0xF4 then ([], .inside 4 0x80 0x8F 2)
  else ([none], .between)

/-- One byte further. A byte that cannot continue the character ends a malformed piece and is
read again as the start of the next. -/
def Progress.step : Progress → UInt8 → Step
  | .between, b => enter b
  | .inside bits low high more, b =>
    if low ≤ b ∧ b ≤ high then
      let bits := bits * 64 + (b.toNat - 0x80)
      match more with
      | 0 => ([some (Char.ofNat bits)], .between)
      | more + 1 => ([], .inside bits 0x80 0xBF more)
    else
      let (out, next) := enter b
      (none :: out, next)

def Progress.finish : Progress → List (Option Char)
  | .between => []
  | .inside .. => [none]

/-- The pieces of the bytes, after those already read, which are given last first. -/
def piecesOnto (read : List (Option Char)) : Progress → List UInt8 → List (Option Char)
  | p, [] => (p.finish ++ read).reverse
  | p, b :: rest =>
    let (out, next) := p.step b
    piecesOnto (out.reverse ++ read) next rest

/-- The characters and the malformed pieces of a byte sequence, in order. -/
def pieces (bytes : List UInt8) : List (Option Char) :=
  piecesOnto [] .between bytes

def decode (bytes : List UInt8) : List Char :=
  (pieces bytes).map fun piece => piece.getD replacement

def decode? (bytes : List UInt8) : Option (List Char) :=
  (pieces bytes).mapM id

def encode (text : List Char) : List UInt8 :=
  text.flatMap String.utf8EncodeChar

end BuildDialect.Utf8
