import BuildDialect.Parser.Startup
import BuildDialect.Proofs.Parser.Attempts
import Mathlib.Data.List.Dedup
import Mathlib.Data.List.Induction

/-!
What becomes of the parsers that are started for a dispatcher, if in the end there is none. They
are closed after an ordinary fault of a factory, one for each dialect and up to an interrupt; on
every other way out they stay as they are.
-/
namespace BuildDialect

open Process

namespace Registry

variable {α : Type}

theorem gather_concat (entries : List (Dialect × α)) (e : Dialect × α) :
    gather (entries ++ [e]) = assign (gather entries) e.1 e.2 := by
  rw [gather, List.foldl_append]
  rfl

theorem mem_gather_dialects {entries : List (Dialect × α)} {dialect : Dialect} :
    dialect ∈ (gather entries).map Prod.fst ↔ dialect ∈ entries.map Prod.fst := by
  induction entries using List.reverseRecOn with
  | nil => rfl
  | append_singleton entries e ih =>
    rw [gather_concat, assign_dialects, List.map_append, List.mem_append, ← ih]
    split_ifs with h
    · refine ⟨Or.inl, fun hd => hd.elim id fun heq => ?_⟩
      rw [List.map_singleton, List.mem_singleton] at heq
      exact heq ▸ h
    · rw [List.mem_append]
      rfl

theorem gather_of_nodup {entries : List (Dialect × α)} (h : (entries.map Prod.fst).Nodup) :
    gather entries = entries := by
  induction entries using List.reverseRecOn with
  | nil => rfl
  | append_singleton entries e ih =>
    rw [List.map_append, List.nodup_append] at h
    have hnew : ¬ entries.any (fun e' => e'.1 == e.1) := by
      intro hany
      obtain ⟨e', he', heq⟩ := List.any_eq_true.mp hany
      exact h.2.2 e'.1 (List.mem_map_of_mem he') e.1 List.mem_cons_self (beq_iff_eq.mp heq)
    rw [gather_concat, ih h.1, assign, if_neg hnew]

theorem length_gather (entries : List (Dialect × α)) :
    (gather entries).length = (entries.map Prod.fst).dedup.length := by
  have hperm : ((gather entries).map Prod.fst).Perm (entries.map Prod.fst).dedup := by
    rw [List.perm_ext_iff_of_nodup (gather_nodup entries) (List.nodup_dedup _)]
    intro dialect
    rw [mem_gather_dialects, List.mem_dedup]
  rw [← hperm.length_eq, List.length_map]

theorem nodup_of_length_gather {entries : List (Dialect × α)}
    (h : entries.length ≤ (gather entries).length) : (entries.map Prod.fst).Nodup := by
  rw [length_gather, ← List.length_map (f := Prod.fst)] at h
  have hdedup := (List.dedup_sublist (entries.map Prod.fst)).eq_of_length_le h
  rw [← hdedup]
  exact List.nodup_dedup _

end Registry

namespace Startup

def warning (failure : Dialect × Fault) : LogRecord :=
  ⟨.warning, .startup,
    s!"Failed to close {failure.1.name} parser after startup error: " ++ failure.2.message⟩

/-- What a startup itself adds to the trace after it has closed a parser. -/
def noted (a : Attempt) : Trace :=
  .visited ⟨.startup, .close, a.errand.dialect, a.errand.parser, fault? a.result⟩ ::
    (a.failure?.toList.map warning).map .logged

def after (a : Attempt) : World := (a.errand.done a.before).extend (noted a)

def worldAfter (w : World) (closes : List Attempt) : World :=
  closes.foldl (fun u a => after ⟨a.errand, u⟩) w

theorem log_noted (a : Attempt) : Trace.log (noted a) = a.failure?.toList.map warning := by
  unfold noted
  cases a.failure? <;> rfl

theorem after_trace (e : Dialect × Parser) (w : World) :
    (after ⟨Parser.errand .close e, w⟩).trace = w.trace ++
      (Attempt.within ⟨Parser.errand .close e, w⟩ ++ noted ⟨Parser.errand .close e, w⟩) := by
  rw [after, World.extend_trace, ← List.append_assoc, Attempt.within,
    ← World.trace_eq_append_since (Parser.errand_prefix .close e w)]

theorem after_of_failure? {e : Dialect × Parser} {w : World} {failure : Option (Dialect × Fault)}
    (h : Attempt.failure? ⟨Parser.errand .close e, w⟩ = failure) :
    after ⟨Parser.errand .close e, w⟩ = ((Parser.errand .close e).done w).extend
      (.visited ((Parser.errand .close e).visit .startup .close w) ::
        (failure.toList.map warning).map .logged) := by
  rw [after, noted, h]
  rfl

theorem closeAll_cons_of_interrupt {e : Dialect × Parser} {rest : List (Dialect × Parser)}
    {w : World} {fault : Fault}
    (h : interrupt? ((Parser.errand .close e).result w) = some fault) :
    (closeAll (e :: rest)).outcome w = (.error fault, after ⟨Parser.errand .close e, w⟩) := by
  obtain ⟨hr, hf⟩ := interrupt?_eq_some.mp h
  have hattempt := (Parser.errand .close e).outcome_attempt .startup .close w
  have hnone : Attempt.failure? ⟨Parser.errand .close e, w⟩ = none := by
    simp only [Attempt.failure?, Attempt.result, hr, hf, if_true]
  rw [hr] at hattempt
  unfold Parser.errand at hattempt
  rw [after_of_failure? hnone, closeAll, outcome_bind, hattempt]
  simp only [hf, if_true, outcome_bind, outcome_throw]
  rfl

theorem closeAll_cons_of_settled {e : Dialect × Parser} {rest : List (Dialect × Parser)}
    {w : World} (h : interrupt? ((Parser.errand .close e).result w) = none) :
    (closeAll (e :: rest)).outcome w =
      (closeAll rest).outcome (after ⟨Parser.errand .close e, w⟩) := by
  have hattempt := (Parser.errand .close e).outcome_attempt .startup .close w
  cases hr : (Parser.errand .close e).result w with
  | ok value =>
    have hnone : Attempt.failure? ⟨Parser.errand .close e, w⟩ = none := by
      simp only [Attempt.failure?, Attempt.result, hr]
    rw [hr] at hattempt
    unfold Parser.errand at hattempt
    rw [after_of_failure? hnone, closeAll, outcome_bind, hattempt]
    rfl
  | error fault =>
    have hf : fault.isInterrupt = false := by
      rw [hr, interrupt?_error] at h
      simpa using h
    have hsome : Attempt.failure? ⟨Parser.errand .close e, w⟩ = some (e.1, fault) := by
      simp only [Attempt.failure?, Attempt.result, hr, hf, Bool.false_eq_true, if_false]
      rfl
    rw [hr] at hattempt
    unfold Parser.errand at hattempt
    rw [after_of_failure? hsome, closeAll, outcome_bind, hattempt]
    simp only [hf, Bool.false_eq_true, if_false, outcome_bind, World.outcome_log,
      World.extend_extend, Option.toList_some, List.map_cons, List.map_nil, List.singleton_append]
    rfl

/-- Parsers are closed by a chain of calls. Only an interrupt is raised. -/
theorem closeAll_chain (parsers : List (Dialect × Parser)) (w : World) :
    ∃ kept closes, ((closeAll parsers).outcome w).1 = kept.map (fun _ => ()) ∧
      Attempt.Chain noted after (parsers.map (Parser.errand .close)) w
        ((closeAll parsers).outcome w).2 kept closes := by
  induction parsers generalizing w with
  | nil => exact ⟨.ok [], [], rfl, .nil w⟩
  | cons e rest ih =>
    cases h : interrupt? ((Parser.errand .close e).result w) with
    | some fault =>
      rw [closeAll_cons_of_interrupt h]
      exact ⟨.error fault, _, rfl, .interrupted (after_trace e w) h⟩
    | none =>
      obtain ⟨kept, closes, hkept, hchain⟩ := ih (after ⟨Parser.errand .close e, w⟩)
      rw [closeAll_cons_of_settled h]
      refine ⟨_, _, ?_, hchain.cons (after_trace e w) h⟩
      rw [hkept]
      cases kept <;> rfl

/-- Closes of parsers that are run one after the other, and all that happens in the course of it. -/
structure Ran (parsers : List (Dialect × Parser)) (w final : World) (closes : List Attempt) :
    Prop where
  /-- What is run are the closes of the parsers, in order and each once. -/
  order : closes.map Attempt.errand <+: parsers.map (Parser.errand .close)
  before : ∀ front a back, closes = front ++ a :: back → a.before = worldAfter w front
  after : final = worldAfter w closes
  called : ∀ a ∈ closes, ∀ d, a.errand.parser = .delegate d →
    a.within = [.called (.lifecycle d.name .close)]
  trace : final.trace = w.trace ++ closes.flatMap fun a => a.within ++ noted a

/-- Parsers that are closed up to the first interrupt, which is raised. A close that fails in the
ordinary way is warned of. -/
structure Closed (parsers : List (Dialect × Parser)) (w final : World) (result : Except Fault Unit)
    (closes : List Attempt) : Prop extends Ran parsers w final closes where
  all : (∀ a ∈ closes, a.settled) → closes.map Attempt.errand = parsers.map (Parser.errand .close)
  last : ∀ front a back, closes = front ++ a :: back → a.settled = false → back = []
  warnings : Trace.log (closes.flatMap noted) = (closes.filterMap Attempt.failure?).map warning
  interrupted : ∀ fault,
    result = .error fault ↔ fault.isInterrupt ∧ ∃ a ∈ closes, a.result = .error fault
  returned : result = .ok () ↔ ∀ a ∈ closes, a.settled

theorem closeAll_closed (parsers : List (Dialect × Parser)) (w : World) :
    ∃ closes, Closed parsers w ((closeAll parsers).outcome w).2 ((closeAll parsers).outcome w).1
      closes := by
  obtain ⟨kept, closes, hkept, h⟩ := closeAll_chain parsers w
  have hcalled : ∀ a ∈ closes, ∀ d, a.errand.parser = .delegate d →
      a.within = [.called (.lifecycle d.name .close)] := by
    intro a ha d hd
    have hmem : a.errand ∈ Parser.performEach .close parsers := by
      rw [Parser.performEach_eq_map]
      exact h.order.subset (List.mem_map_of_mem ha)
    exact Attempt.within_delegate hmem hd
  refine ⟨closes, ⟨h.order, h.before, h.after, hcalled, h.trace⟩, h.all, h.last_of_not_settled,
    Attempt.log_flatMap log_noted closes, ?_, ?_⟩
  · intro fault
    rw [hkept, ← h.error_iff]
    cases kept <;> simp [Except.map]
  · rw [hkept]
    constructor
    · intro hok
      cases kept with
      | ok failures => exact h.of_ok.1
      | error fault => cases hok
    · intro hall
      rw [h.ok_iff.mpr ⟨hall, rfl⟩]
      rfl

/-- The parsers that factories give, one call after the other, before a call fails. -/
def given (factories : List (Dialect × Factory)) (position : Nat) :
    List Dialect → List (Dialect × Parser)
  | [] => []
  | dialect :: rest =>
    match factories.lookup dialect with
    | none => []
    | some factory =>
      match factory position with
      | .ok parser => (dialect, parser) :: given factories (position + 1) rest
      | .error _ => []

def failed? (factories : List (Dialect × Factory)) (position : Nat) :
    List Dialect → Option (Dialect × Fault)
  | [] => none
  | dialect :: rest =>
    match factories.lookup dialect with
    | none => none
    | some factory =>
      match factory position with
      | .ok _ => failed? factories (position + 1) rest
      | .error fault => some (dialect, fault)

def events (parsers : List (Dialect × Parser)) : Trace :=
  parsers.flatMap fun e => [.called (.factory e.1),
    .logged ⟨.info, .startup, s!"Started {e.1.name} parser: {e.2.description}"⟩]

def abandon (started : List (Dialect × Parser)) (fault : Fault) :
    Action (List (Dialect × Parser)) := do
  if !fault.isInterrupt then closeAll started
  throw fault

/-- The fault with which a start is given up: an interrupt of the cleanup takes the place of the
fault that led to it. -/
def raised (cause : Fault) : Except Fault Unit → Fault
  | .ok () => cause
  | .error fault => fault

theorem abandon_closed (started : List (Dialect × Parser)) (cause : Fault) (w : World) :
    ∃ ended final closes, (abandon started cause).outcome w = (.error (raised cause ended), final) ∧
      if cause.isInterrupt then ended = .ok () ∧ final = w ∧ closes = []
      else Closed started w final ended closes := by
  unfold abandon
  cases cause.isInterrupt with
  | true => exact ⟨.ok (), w, [], rfl, rfl, rfl, rfl⟩
  | false =>
    obtain ⟨closes, hclosed⟩ := closeAll_closed started w
    simp only [Bool.not_false, if_true, Bool.false_eq_true, if_false, outcome_bind]
    rcases houtcome : (closeAll started).outcome w with ⟨fault | _, final⟩ <;>
      rw [houtcome] at hclosed
    · exact ⟨_, final, closes, rfl, hclosed⟩
    · exact ⟨_, final, closes, rfl, hclosed⟩

theorem outcome_start {factories : List (Dialect × Factory)} {dialects : List Dialect}
    (provided : ∀ dialect ∈ dialects, dialect ∈ factories.map Prod.fst) (position : Nat)
    (started : List (Dialect × Parser)) (w : World) :
    (start factories position started dialects).outcome w =
      let parsers := given factories position dialects
      let registry := parsers.foldl (fun r e => Registry.assign r e.1 e.2) started
      match failed? factories position dialects with
      | none => (.ok registry, w.extend (events parsers))
      | some (dialect, fault) => (abandon registry fault).outcome
          (w.extend (events parsers ++ [.called (.factory dialect)])) := by
  induction dialects generalizing position started w with
  | nil =>
    rw [start, outcome_pure]
    simp only [given, failed?, events, List.foldl_nil, List.flatMap_nil]
    rw [World.extend, List.append_nil]
  | cons dialect rest ih =>
    have hrest := fun d hd => provided d (List.mem_cons_of_mem _ hd)
    rw [start]
    cases hfactory : factories.lookup dialect with
    | none =>
      obtain ⟨e, he, heq⟩ := List.mem_map.mp (provided dialect List.mem_cons_self)
      have hne := List.lookup_eq_none_iff.mp hfactory e he
      rw [← heq, bne_self_eq_false] at hne
      cases hne
    | some factory =>
      have hemit : (Action.emit (.called (.factory dialect))).outcome w =
          (.ok (), w.extend [.called (.factory dialect)]) := rfl
      simp only [given, failed?, hfactory]
      rw [outcome_bind, hemit]
      dsimp only
      cases factory position with
      | error fault => rfl
      | ok parser =>
        dsimp only
        rw [outcome_bind, World.outcome_log]
        dsimp only
        rw [ih hrest, List.foldl_cons, events, List.flatMap_cons, ← events]
        cases failed? factories (position + 1) rest with
        | none => simp only [World.extend_extend]; rfl
        | some failure => simp only [World.extend_extend]; rfl

end Startup

open Startup

namespace Dispatcher

variable {number : Nat} {name : String} {settings : Settings}
  {factories : List (Dialect × Factory)} {w : World} {d : Dispatcher}
  {entries : List (Key × Parser)} {fault : Fault}

theorem outcome_create_error (h : ((d.create entries).outcome w).1 = .error fault) :
    (d.create entries).outcome w = (.error fault, w) := by
  unfold create at *
  cases hregistry : Registry.ofEntries entries d.default with
  | error cause =>
    rw [hregistry] at h
    cases h
    rfl
  | ok registry =>
    rw [hregistry] at h
    cases h

theorem outcome_start_refused
    (missing : ¬ ∀ dialect ∈ settings.enabled, dialect ∈ factories.map Prod.fst) :
    (Dispatcher.start number name settings factories).outcome w =
      (.error (.settings (.factoriesMissing
        (settings.enabled.filter fun d => !(factories.map Prod.fst).contains d)
        (factories.map Prod.fst))), w) := by
  have hsome : (settings.enabled.filter fun d => !(factories.map Prod.fst).contains d).isEmpty =
      false := by
    by_contra h
    refine missing fun dialect hdialect => ?_
    rw [Bool.not_eq_false, List.isEmpty_iff, List.filter_eq_nil_iff] at h
    simpa using h dialect hdialect
  unfold Dispatcher.start
  dsimp only
  rw [hsome]
  rfl

theorem outcome_start_missing
    (missing : ¬ ∀ dialect ∈ settings.enabled, dialect ∈ factories.map Prod.fst) :
    ((Dispatcher.start number name settings factories).outcome w).2 = w := by
  rw [outcome_start_refused missing]

theorem outcome_start_provided
    (provided : ∀ dialect ∈ settings.enabled, dialect ∈ factories.map Prod.fst) :
    (Dispatcher.start number name settings factories).outcome w =
      (Startup.start factories 0 [] settings.enabled >>= fun started =>
        create ⟨number, name, settings.defaultDialect⟩
          (started.map fun e => (.dialect e.1, e.2))).outcome w := by
  have hnone : settings.enabled.filter (fun d => !(factories.map Prod.fst).contains d) = [] := by
    rw [List.filter_eq_nil_iff]
    intro dialect hdialect
    simpa using provided dialect hdialect
  unfold Dispatcher.start
  dsimp only
  rw [hnone]
  rfl

variable (provided : ∀ dialect ∈ settings.enabled, dialect ∈ factories.map Prod.fst)

include provided

theorem outcome_start_given (started : failed? factories 0 settings.enabled = none) :
    (Dispatcher.start number name settings factories).outcome w =
      (create ⟨number, name, settings.defaultDialect⟩
        ((Registry.gather (given factories 0 settings.enabled)).map fun e =>
          (.dialect e.1, e.2))).outcome
        (w.extend (events (given factories 0 settings.enabled))) := by
  rw [outcome_start_provided provided, outcome_bind, outcome_start provided, started]
  rfl

/-- A start that is given up closes what it has gathered, unless it was interrupted. -/
theorem outcome_start_abandoned {dialect : Dialect} {cause : Fault}
    (failed : failed? factories 0 settings.enabled = some (dialect, cause)) :
    let parsers := given factories 0 settings.enabled
    let middle := w.extend (events parsers ++ [.called (.factory dialect)])
    ∃ ended final closes,
      (Dispatcher.start number name settings factories).outcome w =
        (.error (raised cause ended), final) ∧
      if cause.isInterrupt then ended = .ok () ∧ final = middle ∧ closes = []
      else Closed (Registry.gather parsers) middle final ended closes := by
  intro parsers middle
  obtain ⟨ended, final, closes, hraised, hclosed⟩ :=
    abandon_closed (Registry.gather parsers) cause middle
  refine ⟨ended, final, closes, ?_, hclosed⟩
  have hstart : (Startup.start factories 0 [] settings.enabled).outcome w =
      (.error (raised cause ended), final) := by
    rw [outcome_start provided, failed]
    exact hraised
  rw [outcome_start_provided provided, outcome_bind, hstart]

end Dispatcher
end BuildDialect
