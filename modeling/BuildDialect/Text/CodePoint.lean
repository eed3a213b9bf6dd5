/-!
Texts as escapes may give them. A code point is a character or half of a surrogate pair, which is
none. A text without halves is an ordinary one, and no other text can be written in UTF-8.
-/
namespace BuildDialect

inductive CodePoint where
  | char (char : Char)
  /-- Half of a surrogate pair, by its distance from the first of the halves. -/
  | half (offset : Fin 0x800)
  deriving DecidableEq, Repr

namespace CodePoint

def firstHalf : Nat := 0xD800

def toNat : CodePoint → Nat
  | .char c => c.toNat
  | .half offset => firstHalf + offset

def ofNat? (n : Nat) : Option CodePoint :=
  if h : n.isValidChar then some (.char (Char.ofNatAux n h))
  else if h : n - firstHalf < 0x800 then some (.half ⟨n - firstHalf, h⟩)
  else none

def char? : CodePoint → Option Char
  | .char c => some c
  | .half _ => none

def isHalf (point : CodePoint) : Bool :=
  point.char?.isNone

end CodePoint

abbrev RawText := List CodePoint

namespace RawText

def ofChars (chars : List Char) : RawText :=
  chars.map .char

def ofString (text : String) : RawText :=
  ofChars text.toList

instance : Coe String RawText := ⟨ofString⟩

/-- The ordinary text that has these code points, if there is one. -/
def string? (text : RawText) : Option String :=
  (text.mapM CodePoint.char?).map String.ofList

/-- A text with a replacement character for each half of a surrogate pair. -/
def shown (text : RawText) : String :=
  String.ofList (text.map fun point => point.char?.getD '\uFFFD')

@[simp] theorem ofString_empty : ofString "" = [] := rfl

theorem mapM_char?_ofChars (chars : List Char) :
    (ofChars chars).mapM CodePoint.char? = some chars := by
  induction chars with
  | nil => rfl
  | cons c rest ih => simp_all [ofChars, CodePoint.char?]

@[simp] theorem string?_ofString (text : String) : (ofString text).string? = some text := by
  simp [string?, ofString, mapM_char?_ofChars]

theorem ofString_inj {a b : String} : ofString a = ofString b ↔ a = b := by
  refine ⟨fun h => ?_, congrArg ofString⟩
  have hsame := congrArg string? h
  rw [string?_ofString, string?_ofString] at hsame
  exact Option.some.inj hsame

end RawText
end BuildDialect
