/-! Lines of a text. A line feed, a carriage return or the two together end a line; no other
character does. -/
namespace BuildDialect.Line

def isEnd (c : Char) : Bool :=
  c == '\n' || c == '\r'

/-- The first line without its end; an empty text has none. -/
def first? (text : List Char) : Option (List Char) :=
  match text with
  | [] => none
  | _ :: _ => some (text.takeWhile fun c => !isEnd c)

/-- Writes each line end as one line feed, after what is already written, last first. -/
def unifyOnto (written : List Char) : List Char → List Char
  | [] => written.reverse
  | '\r' :: '\n' :: rest => unifyOnto ('\n' :: written) rest
  | c :: rest => unifyOnto ((if c = '\r' then '\n' else c) :: written) rest

def unify (text : List Char) : List Char :=
  unifyOnto [] text

end BuildDialect.Line
