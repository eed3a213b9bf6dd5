import BuildDialect.Proofs.Parser.Tree

/-!
The visits of a dispatcher, one round after the other. `Dispatcher.Round` says what visiting a list
of parsers comes to, and `Dispatcher.Performed` what an operation on a dispatcher comes to; both
are what the executable operations do.
-/
namespace BuildDialect

namespace Process

variable {α : Type}

def fault? : Except Fault α → Option Fault
  | .ok _ => none
  | .error fault => some fault

def interrupt? (result : Except Fault α) : Option Fault :=
  (fault? result).filter Fault.isInterrupt

@[simp] theorem interrupt?_ok (value : α) : interrupt? (.ok value : Except Fault α) = none := rfl

theorem interrupt?_error (fault : Fault) :
    interrupt? (.error fault : Except Fault α) = if fault.isInterrupt then some fault else none :=
  rfl

theorem interrupt?_eq_some {result : Except Fault α} {fault : Fault} :
    interrupt? result = some fault ↔ result = .error fault ∧ fault.isInterrupt := by
  cases result with
  | ok value => simp
  | error f =>
    rw [interrupt?_error]
    split_ifs with h
    · simp only [Option.some.injEq, Except.error.injEq]
      exact ⟨fun hf => ⟨hf, hf ▸ h⟩, And.left⟩
    · simp only [Except.error.injEq, false_iff, not_and]
      intro hf hi
      exact h (hf ▸ hi)

end Process

open Process

/-- Whether a dispatcher remembers where an operation is done, so as not to do it there again. -/
def Lifecycle.remembers : Lifecycle → Bool
  | .close => true
  | .reportProfile => false

namespace Trace

def visitsBy (number : Nat) (trace : Trace) : List Visit :=
  trace.visits.filter fun v => v.visitor = .dispatcher number

@[simp] theorem visitsBy_append (number : Nat) (a b : Trace) :
    visitsBy number (a ++ b) = visitsBy number a ++ visitsBy number b := by
  simp [visitsBy]

@[simp] theorem calls_logged (records : List LogRecord) : calls (records.map .logged) = [] := by
  simp [calls]

@[simp] theorem visits_logged (records : List LogRecord) : visits (records.map .logged) = [] := by
  simp [visits]

end Trace

namespace World

def extend (w : World) (events : Trace) : World := { w with trace := w.trace ++ events }

def mark (w : World) (number : Nat) (dialect : Dialect) : World :=
  { w with
    closed := fun n =>
      if n = number && !(w.closed n).contains dialect then w.closed n ++ [dialect]
      else w.closed n }

def since (w earlier : World) : Trace := w.trace.drop earlier.trace.length

/-- What the dispatcher of a number has done: the dialects whose parsers it counts as closed, and
its visits. -/
def record (number : Nat) (w : World) : List Dialect × List Visit :=
  (w.closed number, w.trace.visitsBy number)

theorem outcome_log (level : Level) (source : Source) (message : RawText) (w : World) :
    (Action.log level source message).outcome w =
      (.ok (), w.extend [.logged ⟨level, source, message⟩]) := rfl

@[simp] theorem extend_trace (w : World) (events : Trace) :
    (w.extend events).trace = w.trace ++ events := rfl

@[simp] theorem extend_closed (w : World) (events : Trace) : (w.extend events).closed = w.closed :=
  rfl

theorem extend_extend (w : World) (a b : Trace) : (w.extend a).extend b = w.extend (a ++ b) := by
  simp only [extend, List.append_assoc]

theorem extend_record (w : World) {events : Trace} (n : Nat) (h : events.visitsBy n = []) :
    (w.extend events).record n = w.record n := by
  simp [record, h]

theorem mark_closed_of_ne (w : World) {n number : Nat} (dialect : Dialect) (h : n ≠ number) :
    (w.mark number dialect).closed n = w.closed n := by
  simp [mark, h]

theorem mark_closed_self (w : World) (number : Nat) {dialect : Dialect}
    (h : dialect ∉ w.closed number) :
    (w.mark number dialect).closed number = w.closed number ++ [dialect] := by
  simp [mark, h]

theorem mem_mark_closed {w : World} {number : Nat} {dialect other : Dialect} :
    other ∈ (w.mark number dialect).closed number ↔
      other ∈ w.closed number ∨ other = dialect := by
  by_cases h : dialect ∈ w.closed number
  · have hmark : (w.mark number dialect).closed number = w.closed number := by simp [mark, h]
    rw [hmark]
    exact ⟨Or.inl, fun ho => ho.elim id fun heq => heq ▸ h⟩
  · rw [mark_closed_self w number h, List.mem_append, List.mem_singleton]

theorem subset_mark_closed (w : World) (n number : Nat) (dialect : Dialect) :
    w.closed n ⊆ (w.mark number dialect).closed n := by
  unfold mark
  dsimp only
  split_ifs
  · exact List.subset_append_left _ _
  · exact List.Subset.refl _

theorem since_eq {w earlier : World} {events : Trace} (h : w.trace = earlier.trace ++ events) :
    w.since earlier = events := by
  rw [since, h, List.drop_left]

theorem trace_eq_append_since {w earlier : World} (h : earlier.trace <+: w.trace) :
    w.trace = earlier.trace ++ w.since earlier := by
  obtain ⟨events, he⟩ := h
  rw [since_eq he.symm, he]

theorem since_trans {w middle earlier : World} (h : earlier.trace <+: middle.trace)
    (h' : middle.trace <+: w.trace) :
    w.since earlier = middle.since earlier ++ w.since middle := by
  apply since_eq
  rw [← List.append_assoc, ← trace_eq_append_since h, ← trace_eq_append_since h']

end World

namespace Errand

def result (errand : Errand) (w : World) : Except Fault Unit := (errand.action.outcome w).1

def done (errand : Errand) (w : World) : World := (errand.action.outcome w).2

def visit (errand : Errand) (visitor : Visitor) (operation : Lifecycle) (w : World) : Visit :=
  ⟨visitor, operation, errand.dialect, errand.parser, fault? (errand.result w)⟩

def failure? (errand : Errand) (w : World) : Option (Dialect × Fault) :=
  (fault? (errand.result w)).map fun fault => (errand.dialect, fault)

/-- What a dispatcher logs about an errand: a warning if it failed in the ordinary way. -/
def warnings (errand : Errand) (operation : Lifecycle) (w : World) : List LogRecord :=
  match errand.result w with
  | .ok () => []
  | .error fault =>
    if fault.isInterrupt then []
    else [⟨.warning, .dispatch,
      s!"{operation.name}() failed for {errand.dialect.name} parser: " ++ fault.message⟩]

def after (number : Nat) (operation : Lifecycle) (remember : Bool) (errand : Errand)
    (w : World) : World :=
  let told := (errand.done w).extend
    (.visited (errand.visit (.dispatcher number) operation w) ::
      (errand.warnings operation w).map Event.logged)
  if remember && (interrupt? (errand.result w)).isNone then told.mark number errand.dialect
  else told

theorem outcome_attempt (errand : Errand) (visitor : Visitor) (operation : Lifecycle) (w : World) :
    (errand.attempt visitor operation).outcome w =
      (.ok (errand.result w),
        (errand.done w).extend [.visited (errand.visit visitor operation w)]) := by
  unfold attempt visit result done
  simp only [outcome_bind, Process.outcome_attempt, Action.outcome_emit, outcome_pure]
  rcases errand.action.outcome w with ⟨_ | _, w'⟩ <;> rfl

variable {number : Nat} {operation : Lifecycle} {remember : Bool} {errand : Errand} {w : World}

theorem after_trace : (errand.after number operation remember w).trace =
    (errand.done w).trace ++ .visited (errand.visit (.dispatcher number) operation w) ::
      (errand.warnings operation w).map Event.logged := by
  unfold after
  dsimp only
  split_ifs <;> rfl

theorem done_prefix_after :
    (errand.done w).trace <+: (errand.after number operation remember w).trace := by
  rw [after_trace]
  exact List.prefix_append _ _

theorem after_of_settled (h : interrupt? (errand.result w) = none) :
    errand.after number operation remember w =
      let told := (errand.done w).extend
        (.visited (errand.visit (.dispatcher number) operation w) ::
          (errand.warnings operation w).map Event.logged)
      if remember then told.mark number errand.dialect else told := by
  unfold after
  rw [h, Option.isNone_none, Bool.and_true]

theorem after_closed_of_ne {n : Nat} (h : n ≠ number) :
    (errand.after number operation remember w).closed n = (errand.done w).closed n := by
  unfold after
  dsimp only
  split_ifs
  · exact World.mark_closed_of_ne _ _ h
  · rfl

theorem after_closed_of_interrupt {fault : Fault}
    (h : interrupt? (errand.result w) = some fault) :
    (errand.after number operation remember w).closed = (errand.done w).closed := by
  unfold after
  rw [h, Option.isNone_some, Bool.and_false]
  rfl

theorem after_closed_of_forget :
    (errand.after number operation false w).closed = (errand.done w).closed := rfl

theorem after_closed_of_settled (h : interrupt? (errand.result w) = none) :
    (errand.after number operation true w).closed =
      ((errand.done w).mark number errand.dialect).closed := by
  unfold after
  rw [h]
  rfl

theorem mem_after_closed {dialect : Dialect} :
    dialect ∈ (errand.after number operation true w).closed number ↔
      dialect ∈ (errand.done w).closed number ∨
        (interrupt? (errand.result w) = none ∧ dialect = errand.dialect) := by
  cases h : interrupt? (errand.result w) with
  | none => simp [after_closed_of_settled h, World.mem_mark_closed]
  | some fault => simp [after_closed_of_interrupt h]

theorem closed_subset_after (n : Nat) :
    (errand.done w).closed n ⊆ (errand.after number operation remember w).closed n := by
  unfold after
  dsimp only
  split_ifs
  · exact World.subset_mark_closed _ _ _ _
  · exact List.Subset.refl _

theorem after_visits : (errand.after number operation remember w).trace.visits =
    (errand.done w).trace.visits ++ [errand.visit (.dispatcher number) operation w] := by
  rw [after_trace, Trace.visits_append]
  simp [Trace.visits]

theorem after_record_of_ne {n : Nat} (h : n ≠ number) :
    (errand.after number operation remember w).record n = (errand.done w).record n := by
  unfold World.record Trace.visitsBy
  rw [after_closed_of_ne h, after_visits, List.filter_append]
  simp [visit, h.symm]

theorem after_visitsBy : (errand.after number operation remember w).trace.visitsBy number =
    (errand.done w).trace.visitsBy number ++
      [errand.visit (.dispatcher number) operation w] := by
  unfold Trace.visitsBy
  rw [after_visits, List.filter_append]
  simp [visit]

end Errand

namespace Dispatcher

/-- What the visits of a dispatcher come to, and the world after them. They give the ordinary
failures in order; a visit that ends with an interrupt is the last one. -/
inductive Round (number : Nat) (operation : Lifecycle) (remember : Bool) :
    List Errand → World → Except Fault (List (Dialect × Fault)) → World → Prop
  | done (w : World) : Round number operation remember [] w (.ok []) w
  | interrupted {errand : Errand} {rest : List Errand} {w : World} {fault : Fault}
      (h : interrupt? (errand.result w) = some fault) :
      Round number operation remember (errand :: rest) w (.error fault)
        (errand.after number operation remember w)
  | settled {errand : Errand} {rest : List Errand} {w final : World}
      {result : Except Fault (List (Dialect × Fault))}
      (h : interrupt? (errand.result w) = none)
      (next : Round number operation remember rest (errand.after number operation remember w)
        result final) :
      Round number operation remember (errand :: rest) w
        (result.map ((errand.failure? w).toList ++ ·)) final

variable {number : Nat} {operation : Lifecycle} {remember : Bool} {errand : Errand}
  {rest : List Errand} {w : World}

theorem outcome_markClosed (number : Nat) (dialect : Dialect) (w : World) :
    (markClosed number dialect).outcome w = (.ok (), w.mark number dialect) := rfl

theorem visit_cons_of_interrupt {fault : Fault} (h : interrupt? (errand.result w) = some fault) :
    (visit number operation remember (errand :: rest)).outcome w =
      (.error fault, errand.after number operation remember w) := by
  obtain ⟨hr, hf⟩ := interrupt?_eq_some.mp h
  rw [visit]
  simp only [outcome_bind, Errand.outcome_attempt, hr, hf, if_true, outcome_throw]
  simp [Errand.after, Errand.warnings, hr, hf, interrupt?_error]

/-- What comes after a visit is done where its parser counts as closed, if that is remembered. -/
theorem outcome_remembered {α : Type} (remember : Bool) (number : Nat) (dialect : Dialect)
    (next : Action α) (w : World) :
    (if remember then markClosed number dialect >>= fun _ => next else next : Action α).outcome w =
      next.outcome (if remember then w.mark number dialect else w) := by
  cases remember with
  | false => rfl
  | true => simp only [if_true, outcome_bind, outcome_markClosed]

theorem visit_cons_of_settled (h : interrupt? (errand.result w) = none) :
    (visit number operation remember (errand :: rest)).outcome w =
      (((visit number operation remember rest).outcome
          (errand.after number operation remember w)).1.map ((errand.failure? w).toList ++ ·),
        ((visit number operation remember rest).outcome
          (errand.after number operation remember w)).2) := by
  rw [visit, Errand.after_of_settled h]
  simp only [outcome_bind, Errand.outcome_attempt]
  cases hr : errand.result w with
  | ok value =>
    have hwarnings : errand.warnings operation w = [] := by rw [Errand.warnings, hr]
    have hfailure : errand.failure? w = none := by rw [Errand.failure?, hr]; rfl
    simp only [outcome_remembered, hwarnings, hfailure, List.map_nil]
    rcases (visit number operation remember rest).outcome _ with ⟨_ | _, final⟩ <;> rfl
  | error fault =>
    have hf : fault.isInterrupt = false := by
      rw [hr, interrupt?_error] at h
      simpa using h
    have hwarnings : errand.warnings operation w = [⟨.warning, .dispatch,
        s!"{operation.name}() failed for {errand.dialect.name} parser: " ++ fault.message⟩] := by
      simp only [Errand.warnings, hr, hf, Bool.false_eq_true, if_false]
    have hfailure : errand.failure? w = some (errand.dialect, fault) := by
      rw [Errand.failure?, hr]
      rfl
    simp only [hf, Bool.false_eq_true, if_false, outcome_bind, World.outcome_log,
      outcome_remembered, World.extend_extend, hwarnings, hfailure, List.map_cons, List.map_nil,
      List.singleton_append]
    rcases (visit number operation remember rest).outcome _ with ⟨_ | _, final⟩ <;> rfl

theorem visit_round (number : Nat) (operation : Lifecycle) (remember : Bool)
    (errands : List Errand) (w : World) :
    Round number operation remember errands w
      ((visit number operation remember errands).outcome w).1
      ((visit number operation remember errands).outcome w).2 := by
  induction errands generalizing w with
  | nil => exact .done w
  | cons errand rest ih =>
    cases h : interrupt? (errand.result w) with
    | some fault =>
      rw [visit_cons_of_interrupt h]
      exact .interrupted h
    | none =>
      rw [visit_cons_of_settled h]
      exact .settled h (ih _)

/-- The parsers that an operation is carried out on. A close passes over those that are closed. -/
def pending (d : Dispatcher) (operation : Lifecycle) (registry : List (Dialect × Parser))
    (w : World) : List (Dialect × Parser) :=
  match operation with
  | .reportProfile => registry
  | .close => registry.filter fun e => !(w.closed d.number).contains e.1

def finish (operation : Lifecycle) : Except Fault (List (Dialect × Fault)) → Except Fault Unit
  | .ok [] => .ok ()
  | .ok (failure :: rest) => .error (.lifecycle operation.name (failure :: rest) true)
  | .error fault => .error fault

def idleRecord : LogRecord :=
  ⟨.debug, .dispatch, "close() called on an already closed hybrid parser"⟩

inductive Performed (d : Dispatcher) (operation : Lifecycle) (registry : List (Dialect × Parser))
    (w : World) : Except Fault Unit → World → Prop
  | idle (hop : operation = .close) (h : d.pending operation registry w = []) :
      Performed d operation registry w (.ok ()) (w.extend [.logged idleRecord])
  | round {result : Except Fault (List (Dialect × Fault))} {final : World}
      (h : Round d.number operation operation.remembers
        (Parser.performEach operation (d.pending operation registry w)) w result final) :
      Performed d operation registry w (finish operation result) final

theorem outcome_fanOut (number : Nat) (operation : Lifecycle) (remember : Bool)
    (errands : List Errand) (w : World) :
    (fanOut number operation remember errands).outcome w =
      (finish operation ((visit number operation remember errands).outcome w).1,
        ((visit number operation remember errands).outcome w).2) := by
  unfold fanOut
  rw [outcome_bind]
  rcases (visit number operation remember errands).outcome w with ⟨_ | failures, final⟩
  · rfl
  · cases failures <;> rfl

theorem pending_close (d : Dispatcher) (registry : List (Dialect × Parser)) (w : World) :
    Parser.performEach .close (d.pending .close registry w) =
      (Parser.performEach .close registry).filter fun errand =>
        !(w.closed d.number).contains errand.dialect := by
  rw [Parser.performEach_eq_map, Parser.performEach_eq_map, List.filter_map]
  rfl

end Dispatcher

theorem Parser.perform_performed (operation : Lifecycle) (d : Dispatcher)
    (registry : List (Dialect × Parser)) (w : World) :
    d.Performed operation registry w
      (((Parser.dispatcher d registry).perform operation).outcome w).1
      (((Parser.dispatcher d registry).perform operation).outcome w).2 := by
  rw [Parser.perform]
  unfold Dispatcher.perform
  cases operation with
  | reportProfile =>
    dsimp only
    rw [Dispatcher.outcome_fanOut]
    exact .round (Dispatcher.visit_round ..)
  | close =>
    simp only [outcome_bind, outcome_get, ← Dispatcher.pending_close]
    split_ifs with h
    · refine .idle rfl ?_
      rw [List.isEmpty_iff, Parser.performEach_eq_map] at h
      exact List.map_eq_nil_iff.mp h
    · rw [Dispatcher.outcome_fanOut]
      exact .round (Dispatcher.visit_round ..)

end BuildDialect
