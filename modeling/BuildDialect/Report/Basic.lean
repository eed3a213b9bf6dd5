import BuildDialect.Detection
import BuildDialect.Report.Arguments
import BuildDialect.Settings.Storage

/-!
The report: the dialect of each build file. All files are gone through, whatever is wrong with
some; their number is reported at the end.
-/
namespace BuildDialect.Report

/-- What a run leaves behind: its exit code and what it has written. -/
structure Exit where
  code : Nat
  output : String
  errors : RawText
  deriving DecidableEq, Repr

def usage : String :=
  "usage: show_syntax.py [-h] [--default \x7bPYTHON_DSL,SKYLARK\x7d | --config CONFIG]\n" ++
  "                      build_files [build_files ...]\n"

def help : String :=
  usage ++
  "\nReport which syntax each build file would be parsed with.\n" ++
  "\npositional arguments:\n  build_files\n" ++
  "\noptions:\n  -h, --help            show this help message and exit\n" ++
  "  --default \x7bPYTHON_DSL,SKYLARK\x7d\n  --config CONFIG\n"

def found (dialect : Dialect) (file : RawText) : RawText :=
  let name := dialect.name
  name ++ String.ofList (List.replicate (10 - name.length) ' ') ++ "  " ++ file

def reportFile (default : Dialect) (file : RawText) : Action Bool := do
  match ← (selectDialect ⟨file⟩ default).attempt with
  | .ok dialect =>
    Action.log .info .report (found dialect file)
    return true
  | .error (.unrecognized path name) =>
    Action.log .error .report (Fault.unrecognized path name).message
    return false
  | .error fault =>
    if !fault.isFileFault then throw fault
    Action.log .error .report ("Cannot read " ++ file ++ ": " ++ fault.message)
    return false

def reportFiles (default : Dialect) : List RawText → Action Nat
  | [] => return 0
  | file :: rest => do
    let isFound ← reportFile default file
    let failures ← reportFiles default rest
    return if isFound then failures else failures + 1

/-- The dialect of unmarked files: from the settings file that is named, else as given. -/
def defaultOf (request : Request) : Action Dialect := do
  match request.config, request.default with
  | some config, given =>
    if config.isEmpty then return given.getD Settings.standard.defaultDialect
    else return (← Settings.load ⟨config⟩).defaultDialect
  | none, given => return given.getD Settings.standard.defaultDialect

/-- Carries out a request. The exit code says whether every dialect is found. -/
def carryOut (request : Request) : Action Exit := do
  let default ← defaultOf request
  let failures ← reportFiles default request.files
  if failures = 0 then return ⟨0, "", ""⟩
  else
    Action.log .warning .report s!"{failures} of {request.files.length} build file(s) failed"
    return ⟨1, "", ""⟩

def run (arguments : List RawText) : Action Exit :=
  match Request.ofArguments arguments with
  | .error .help => return ⟨0, help, ""⟩
  | .error (.misuse misuse) =>
    return ⟨2, "", s!"{usage}show_syntax.py: error: " ++ misuse.message ++ "\n"⟩
  | .ok request => carryOut request

end BuildDialect.Report
