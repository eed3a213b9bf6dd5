import BuildDialect.Settings.Basic
import BuildDialect.Text.CodePoint

/-! What is wrong with a value that was given for settings. -/
namespace BuildDialect

inductive Violation where
  /-- The value is no mapping. -/
  | notMapping
  /-- A text in a field that is the name of no dialect. -/
  | unknownName (field : String) (name : RawText)
  /-- A text at a position of a field that is none of characters. -/
  | noCharacters (field : String) (position : Nat)
  /-- A value in a field, or at a position of its list, that is no dialect. -/
  | notDialect (field : String) (position : Option Nat)
  /-- A field that should be a list. -/
  | notList (field : String)
  /-- No dialect is enabled. -/
  | nothingEnabled
  /-- Dialects that are enabled more than once. -/
  | repeated (dialects : List Dialect)
  /-- The default is not among the enabled dialects. -/
  | defaultNotEnabled (default : Dialect) (enabled : List Dialect)
  deriving DecidableEq, Repr

namespace Violation

inductive Step where
  | field (name : String)
  | position (index : Nat)
  deriving DecidableEq, Repr

def location : Violation → List Step
  | .unknownName field _ => [.field field]
  | .notDialect field none => [.field field]
  | .notDialect field (some index) => [.field field, .position index]
  | .noCharacters field index => [.field field, .position index]
  | .notList field => [.field field]
  | _ => []

def kind : Violation → String
  | .notMapping => "model_type"
  | .notDialect .. => "enum"
  | .notList _ => "list_type"
  | .noCharacters .. => "string_unicode"
  | _ => "value_error"

def unknownNameText (name : RawText) : RawText :=
  .ofString "Unknown syntax \x27" ++ name ++
    .ofString s!"\x27. Known syntaxes: {Dialect.knownNames}"

def message : Violation → String
  | .notMapping => "Input should be a valid dictionary or instance of ParserConfig"
  | .unknownName _ name => "Value error, " ++ (unknownNameText name).shown
  | .noCharacters .. =>
    "Input should be a valid string, unable to parse raw data as a unicode string"
  | .notDialect .. =>
    "Input should be " ++ " or ".intercalate (Dialect.all.map fun d => Quoted.quote d.name)
  | .notList _ => "Input should be a valid list"
  | .nothingEnabled => "Value error, enabled_syntaxes must contain at least one syntax."
  | .repeated dialects =>
    s!"Value error, enabled_syntaxes lists {Dialect.listing dialects} more than once."
  | .defaultNotEnabled default enabled =>
    s!"Value error, default_build_file_syntax {default.name} is not in enabled_syntaxes " ++
      s!"{Dialect.listing enabled}."

/-- What would have to be said about the violation, if it cannot be written. -/
def unwritable? : Violation → Option RawText
  | .unknownName _ name =>
    if name.any CodePoint.isHalf then some (unknownNameText name) else none
  | _ => none

end Violation
end BuildDialect
