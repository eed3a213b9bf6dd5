import BuildDialect.Yaml.Content
import BuildDialect.Yaml.Stream

/-! The value of a YAML text, from its bytes. -/
namespace BuildDialect.Yaml

def Document.ofIntake (intake : Intake) : Except Fault (Option Document) :=
  Document.ofTokens (Tokens.ofIntake intake)

/-- The value of a text, down to a depth. A text without a document stands for nothing. -/
def read (depth : Nat) (bytes : List UInt8) : Except Fault Value := do
  match ← Document.ofIntake (Intake.ofBytes bytes) with
  | none => return .scalar .nothing
  | some document =>
    let found ← document.examine
    return document.value found depth document.root

end BuildDialect.Yaml
