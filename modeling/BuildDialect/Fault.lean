import BuildDialect.Count
import BuildDialect.Files.Fault
import BuildDialect.Parser.Key
import BuildDialect.Parser.Operation
import BuildDialect.Settings.Violation
import BuildDialect.Yaml.Fault

/-!
Everything that can go wrong. An ordinary fault is collected by whoever attempts several things;
an interrupt ends them all. Each fault has a class, by which reports name it, and a message.
-/
namespace BuildDialect

/-- The classes of ordinary faults that a delegate or a factory may raise on its own. -/
inductive FailureClass where
  | value | runtime | type | key | os | fileNotFound | permission | timeout | assertion | general
  | buildFile | parse | settings | unregistered
  deriving DecidableEq, Repr

inductive InterruptClass where
  | base | keyboard | exit | generatorExit | cancelled
  deriving DecidableEq, Repr

inductive RegistryFault where
  | empty
  | foreignKey (key : ForeignKey)
  | defaultUnmapped (default : Dialect) (registered : List Dialect)
  deriving Repr

/-- Why there are no settings, or none that can be started from. -/
inductive SettingsFault where
  | fileMissing (path : Path)
  | fileEmpty (path : Path)
  /-- The file holds a value that is no mapping; the type of that value is named. -/
  | notMapping (path : Path) (type : String)
  | invalid (violations : List Violation)
  /-- A report that cannot be written, for a text in it that is none of characters. -/
  | unwritable (report : RawText)
  | factoriesMissing (missing provided : List Dialect)
  deriving Repr

inductive Fault where
  /-- An ordinary fault of a delegate or a factory. -/
  | failure (kind : FailureClass) (text : Option String)
  | interrupt (kind : InterruptClass) (text : Option String)
  /-- The marker of a build file names no known dialect. -/
  | unrecognized (buildFile : Path) (name : String)
  /-- Parsers failed at an operation on all of them. A fault that a dispatcher raises is caused by
  its first failure. -/
  | lifecycle (operation : String) (failures : List (Dialect × Fault)) (caused : Bool)
  /-- The dialect of a build file has no parser. -/
  | unregistered (dialect : Dialect)
  | file (fault : FileFault)
  | registry (fault : RegistryFault)
  | settings (fault : SettingsFault)
  | yaml (fault : Yaml.Fault)
  | count (fault : CountFault)
  /-- A name under which the session holds nothing. -/
  | unnamed (name : String)
  deriving Repr

def FailureClass.name : FailureClass → String
  | .value => "ValueError"
  | .runtime => "RuntimeError"
  | .type => "TypeError"
  | .key => "KeyError"
  | .os => "OSError"
  | .fileNotFound => "FileNotFoundError"
  | .permission => "PermissionError"
  | .timeout => "TimeoutError"
  | .assertion => "AssertionError"
  | .general => "Exception"
  | .buildFile => "HybridBuildFileError"
  | .parse => "BuildFileParseError"
  | .settings => "ConfigValidationError"
  | .unregistered => "SyntaxRegistryInvariantError"

def InterruptClass.name : InterruptClass → String
  | .base => "BaseException"
  | .keyboard => "KeyboardInterrupt"
  | .exit => "SystemExit"
  | .generatorExit => "GeneratorExit"
  | .cancelled => "CancelledError"

def FileCause.name : FileCause → String
  | .missing => "FileNotFoundError"
  | .denied => "PermissionError"
  | .taken => "FileExistsError"
  | .notDirectory => "NotADirectoryError"
  | .isDirectory => "IsADirectoryError"
  | .nameTooLong => "OSError"
  | .nullCharacter => "ValueError"
  | .unencodable => "UnicodeEncodeError"

/-- Why there are no settings, given what is wrong with a value for them. All of it is reported, if
all of it can be written. -/
def SettingsFault.ofViolations (violations : List Violation) : SettingsFault :=
  match violations.findSome? Violation.unwritable? with
  | some report => .unwritable report
  | none => .invalid violations

def RegistryFault.message : RegistryFault → String
  | .empty => "At least one parser must be registered."
  | .foreignKey key => s!"Registry keys must be Syntax values, got {key.shown}"
  | .defaultUnmapped default registered =>
    s!"Default syntax {default.name} is not mapped to any parser. Registered syntaxes: " ++
      ", ".intercalate (registered.map Dialect.name)

def SettingsFault.message : SettingsFault → RawText
  | .fileMissing path => "Config file not found: " ++ path.text
  | .fileEmpty path => "Config file is empty: " ++ path.text
  | .notMapping path type =>
    "Config file " ++ path.text ++ s!" must contain a mapping of settings, got {type}"
  | .invalid violations => "; ".intercalate (violations.map Violation.message)
  | .unwritable report => report.unwritableMessage CodePoint.isHalf
  | .factoriesMissing missing provided =>
    s!"No parser factory for enabled syntax(es) {Dialect.listing missing}. " ++
      s!"Factories provided for: {Dialect.listing provided}"

namespace Fault

/-- Whether the fault ends everything that is under way. -/
def isInterrupt : Fault → Bool
  | .interrupt .. => true
  | _ => false

def className : Fault → String
  | .failure kind _ => kind.name
  | .interrupt kind _ => kind.name
  | .unrecognized .. => "UnrecognizedSyntaxError"
  | .lifecycle .. => "LifecycleError"
  | .unregistered _ => FailureClass.unregistered.name
  | .file fault => fault.cause.name
  | .registry _ => FailureClass.value.name
  | .settings (.fileMissing _) => FailureClass.fileNotFound.name
  | .settings (.invalid _) => "ValidationError"
  | .settings (.unwritable _) => "UnicodeEncodeError"
  | .settings _ => FailureClass.settings.name
  | .yaml fault => fault.name
  | .count _ => FailureClass.value.name
  | .unnamed _ => FailureClass.key.name

/-- Whether the fault is of the family that the user of build files can mend. -/
def isBuildFileFault : Fault → Bool
  | .failure kind _ => kind == .buildFile || kind == .parse || kind == .settings
  | .unrecognized .. | .lifecycle .. => true
  | .settings (.fileEmpty _) | .settings (.notMapping ..) | .settings (.factoriesMissing ..) => true
  | _ => false

def isFileFault : Fault → Bool
  | .file fault => fault.cause.isSystem
  | _ => false

mutual

def message : Fault → RawText
  | .failure .key (some text) => Quoted.quote text
  | .failure _ text => text.getD ""
  | .interrupt _ text => text.getD ""
  | .unrecognized buildFile name =>
    s!"Unrecognized syntax [{name}] requested for build file [" ++ buildFile.text ++ "]"
  | .lifecycle operation failures _ =>
    s!"{operation}() failed for {failures.length} parser(s): " ++
      List.intercalate (RawText.ofString "; ") (details failures)
  | .unregistered dialect => s!"{dialect.name} is not mapped to any parser"
  | .file fault => fault.message
  | .registry fault => fault.message
  | .settings fault => fault.message
  | .yaml fault => fault.message
  | .count fault => fault.message
  | .unnamed name => Quoted.quote name

/-- One entry for each failure: dialect, class and message. -/
def details : List (Dialect × Fault) → List RawText
  | [] => []
  | (dialect, fault) :: rest =>
    (s!"{dialect.name}: {fault.className}: " ++ fault.message) :: details rest

end

def cause? : Fault → Option Fault
  | .lifecycle _ ((_, first) :: _) true => some first
  | _ => none

end Fault
end BuildDialect
