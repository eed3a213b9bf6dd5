import BuildDialect.Session.Basic
import BuildDialect.Session.Command

/-!
Carrying out commands. A session goes on after a command that failed; a block over a parser ends
with its first failure, and however it ends, the parser is closed.
-/
namespace BuildDialect

/-- Where a build file is written to see what is detected of it. -/
def buildFilePath : Path := ⟨"BUCK"⟩

def settingsPath : Path := ⟨"parser.yaml"⟩

namespace Turn

def write (path : Path) (content : List UInt8) : Turn Unit := do
  let plain := PlainPath.ofPath path
  act (Action.makeDirectories plain.parent)
  act (Action.change plain.toPath fun files p => files.write p content)

def detect (content : List UInt8) (default : Dialect) : Turn Detected := do
  act (Action.change buildFilePath fun files p => files.write p content)
  let selected ← act (selectDialect buildFilePath default).attempt
  let firstLine ← act (readFirstLine buildFilePath)
  let marker ← act (readMarker buildFilePath)
  return ⟨firstLine, marker, selected⟩

def load (path : Path) (name : Option String) : Turn Settings := do
  let settings ← act (Settings.load path)
  keepSettings name settings
  return settings

def save (name : String) (path : Path) : Turn String := do
  act ((← settings name).save path)
  let bytes ← act (Action.ask path.plain FileTree.read)
  return String.ofList (Utf8.decode bytes)

def delegate (plan : DelegatePlan) : Turn Unit := do
  let number ← newNumber
  keepParser plan.name
    (.delegate ⟨number, plan.name, plan.description, plan.rules, plan.metaRules⟩)
  scheduleAll number plan.failures

def offered : List Offer → Turn (List (Key × Parser))
  | [] => pure []
  | offer :: rest => do
    let parser ← parser offer.parser
    return (offer.key, parser) :: (← offered rest)

def factories : List (Dialect × Making) → Turn (List (Dialect × Factory))
  | [] => pure []
  | (dialect, .give name) :: rest => do
    let parser ← parser name
    return (dialect, fun _ => .ok parser) :: (← factories rest)
  | (dialect, .fail fault) :: rest => do
    return (dialect, fun _ => .error fault) :: (← factories rest)

def dispatcher (name : String) (offers : List Offer) (default : Dialect) : Turn Parser := do
  let entries ← offered offers
  let number ← newNumber
  let parser ← act (Dispatcher.create ⟨number, name, default⟩ entries)
  keepParser name parser
  return parser

def start (name : String) (from? : Option String) (makings : List (Dialect × Making)) :
    Turn Parser := do
  let settings ← match from? with
    | none => pure Settings.standard
    | some name => settings name
  let factories ← factories makings
  let number ← newNumber
  let parser ← act (Dispatcher.start number name settings (Registry.gather factories))
  keepParser name parser
  return parser

def profile (name : String) : Turn Profile := do
  match ← parser name with
  | .delegate _ => throw (.unnamed name)
  | .dispatcher d registry =>
    return ⟨d.default, registry.map fun e => (e.1, e.2.name),
      Parser.description (.dispatcher d registry)⟩

def number (outcome : Except CountFault Int) : Turn Int :=
  match outcome with
  | .ok n => pure n
  | .error fault => throw (.count fault)

def ask (name : String) (query : Query) (path : Path) (counted : Option String) :
    Turn Reply := do
  let parser ← parser name
  if let some name := counted then
    let _ ← counter name
  let rules ← act (parser.ask query path counted)
  match counted with
  | none => return .rules rules none
  | some name => return .rules rules (some (← number (Count.writable (← counter name))))

end Turn

namespace Command

/-- The answer to a command as it is given. A report leaves out the records that only help to find
faults. -/
def shown (command : Command) (answer : Answer Reply) : Answer Reply :=
  match command with
  | .report _ => { answer with trace := answer.trace.withoutDebug }
  | _ => answer

mutual

def run : Command → Turn Reply
  | .dialectNamed name => return .found (Dialect.ofName? name)
  | .firstLine path => return .line (← Turn.act (readFirstLine path))
  | .markerName path => return .line (← Turn.act (readMarker path))
  | .select path default => return .found (some (← Turn.act (selectDialect path default)))
  | .detect content default => return .detected (← Turn.detect content default)
  | .write path content => do
    Turn.write path content
    return .done
  | .makeDirectory path => do
    Turn.act (Action.makeDirectories (.ofPath path))
    return .done
  | .remove path => do
    Turn.act (Action.change path.plain FileTree.remove)
    return .done
  | .validate value name => do
    match Settings.ofValue value with
    | .error violations => throw (.settings (.ofViolations violations))
    | .ok settings =>
      Turn.keepSettings name settings
      return .settings settings
  | .load path name => return .settings (← Turn.load path name)
  | .loadContent content name => do
    Turn.act (Action.change settingsPath fun files p => files.write p content)
    return .settings (← Turn.load settingsPath name)
  | .adjust name default enabled => do
    let settings ← Turn.settings name
    let adjusted : Settings :=
      ⟨default.getD settings.defaultDialect, enabled.getD settings.enabled⟩
    Turn.keepSettings (some name) adjusted
    return .settings adjusted
  | .save name path => return .text (← Turn.save name path)
  | .compare first second => do
    return .truth (decide ((← Turn.settings first) = (← Turn.settings second)))
  | .counter name value => do
    let value ← Turn.number (Count.read value)
    Turn.keepCounter name value
    return .counter value
  | .add name delta => do
    let _ ← Turn.counter name
    let delta ← Turn.number (Count.read delta)
    let total ← Turn.number (Count.writable (← Turn.act (Action.count name delta)))
    return .sum total (← Turn.counter name)
  | .delegate plan => do
    Turn.delegate plan
    return .done
  | .schedule name operation fault => do
    match ← Turn.parser name with
    | .dispatcher .. => throw (.unnamed name)
    | .delegate d =>
      Turn.schedule d.number operation fault
      return .done
  | .dispatcher name offers default =>
    return .text (← Turn.dispatcher name offers default).description
  | .start name settings factories =>
    return .text (← Turn.start name settings factories).description
  | .describe name => return .profile (← Turn.profile name)
  | .ask name query path counted => Turn.ask name query path counted
  | .route name path => do
    let parser ← Turn.parser name
    return .text (← Turn.act (parser.forBuildFile path)).name
  | .perform name operation => do
    let parser ← Turn.parser name
    Turn.act (parser.perform operation)
    return .done
  | .block name body ending => do
    let parser ← Turn.parser name
    let (steps, failed) ← runBody body
    let closing ← Turn.act (parser.perform .close).attempt
    return .block steps (Parser.leave (failed <|> ending) closing)
  | .explain fault => return .fault fault
  | .report arguments => return .exit (← Turn.act (Report.run arguments))

/-- Carries out commands up to the first that fails, and gives their answers and its fault. -/
def runBody : List Command → Turn (List (Answer Reply) × Option Fault)
  | [] => return ([], none)
  | command :: rest => do
    let answer := command.shown (← Turn.answer command.run)
    match answer.result with
    | .error fault => return ([answer], some fault)
    | .ok _ =>
      let (answers, failed) ← runBody rest
      return (answer :: answers, failed)

end

end Command

namespace Session

def perform (session : Session) (command : Command) : Answer Reply × Session :=
  match command.run.outcome session with
  | (result, after) =>
    (command.shown ⟨result, after.world.trace.drop session.world.trace.length⟩, after)

/-- The answers to commands, each given whatever came of those before it, and the session after
them. -/
def run (session : Session) : List Command → List (Answer Reply) × Session
  | [] => ([], session)
  | command :: rest =>
    let (answer, after) := session.perform command
    let (answers, final) := after.run rest
    (answer :: answers, final)

end Session
end BuildDialect
