import BuildDialect.Settings.Violation
import BuildDialect.Value

/-!
Settings from a value. Both fields are examined, each for itself; only if they are fine do the
rules that concern both apply, and of those the first that is violated is reported.
-/
namespace BuildDialect.Settings

def named? (name : RawText) : Option Dialect :=
  name.string?.bind Dialect.ofName?

/-- The dialect that a value is, or whose name it is. -/
def dialectOf? : Value → Option Dialect
  | .dialect d => some d
  | .text t => named? t
  | _ => none

def unknownText? : Value → Option RawText
  | .text t => if (named? t).isNone then some t else none
  | _ => none

def readDefault (value : Value) : Except (List Violation) Dialect :=
  match unknownText? value, dialectOf? value with
  | some text, _ => .error [.unknownName defaultKey text]
  | none, some dialect => .ok dialect
  | none, none => .error [.notDialect defaultKey none]

def itemViolation (position : Nat) : Value → Violation
  | .text t =>
    if t.any CodePoint.isHalf then .noCharacters enabledKey position
    else .notDialect enabledKey (some position)
  | _ => .notDialect enabledKey (some position)

/-- The violations of items, counted from a position: each that is no dialect is one. -/
def itemViolations (position : Nat) : List Value → List Violation
  | [] => []
  | item :: rest =>
    match dialectOf? item with
    | some _ => itemViolations (position + 1) rest
    | none => itemViolation position item :: itemViolations (position + 1) rest

def readItems (items : List Value) : Except (List Violation) (List Dialect) :=
  match itemViolations 0 items with
  | [] => .ok (items.filterMap dialectOf?)
  | violations => .error violations

/-- The enabled dialects from the value of their field. In a list, a text that is no name hides
what else is wrong with it. -/
def readEnabled : Value → Except (List Violation) (List Dialect)
  | .list items =>
    match items.findSome? unknownText? with
    | some text => .error [.unknownName enabledKey text]
    | none => readItems items
  | .tuple items => readItems items
  | .set items => readItems items
  | _ => .error [.notList enabledKey]

def repeated (enabled : List Dialect) : List Dialect :=
  Dialect.all.filter fun d => 1 < enabled.count d

/-- The first rule on both fields that settings violate. -/
def violation? (settings : Settings) : Option Violation :=
  if settings.enabled.isEmpty then some .nothingEnabled
  else if !(repeated settings.enabled).isEmpty then some (.repeated (repeated settings.enabled))
  else if !settings.enabled.contains settings.defaultDialect then
    some (.defaultNotEnabled settings.defaultDialect settings.enabled)
  else none

def defaultField (pairs : List (Value × Value)) : Except (List Violation) Dialect :=
  match Value.field? pairs defaultKey with
  | none => .ok standard.defaultDialect
  | some value => readDefault value

def enabledField (pairs : List (Value × Value)) : Except (List Violation) (List Dialect) :=
  match Value.field? pairs enabledKey with
  | none => .ok standard.enabled
  | some value => readEnabled value

/-- The settings of a value. Keys that are no field are ignored. -/
def ofValue : Value → Except (List Violation) Settings
  | .mapping pairs =>
    match defaultField pairs, enabledField pairs with
    | .ok defaultDialect, .ok enabled =>
      match violation? ⟨defaultDialect, enabled⟩ with
      | none => .ok ⟨defaultDialect, enabled⟩
      | some violation => .error [violation]
    | .error these, .error those => .error (these ++ those)
    | .error these, .ok _ => .error these
    | .ok _, .error those => .error those
  | _ => .error [.notMapping]

end BuildDialect.Settings
