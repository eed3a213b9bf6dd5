import BuildDialect.Proofs.Parser.Calls
import Mathlib.Data.List.Flatten

/-!
How an operation on a tree of parsers accounts for its calls to delegates. A fault that lists
failures of parsers stands for the failures at the leaves below them; unfolded, it lists the
calls that failed, all of them, once, and in order.
-/
namespace BuildDialect

open Process

mutual

/-- The failures at leaves that a fault of the parser of a dialect stands for. Only what a
dispatcher raises stands for others. -/
def Fault.unfold (dialect : Dialect) (p : Parser) : Fault → List (Dialect × Fault)
  | .lifecycle operation failures caused =>
    match p with
    | .delegate _ => [(dialect, .lifecycle operation failures caused)]
    | .dispatcher _ entries => unfoldEach entries failures
  | fault => [(dialect, fault)]

def Fault.unfoldEach (entries : List (Dialect × Parser)) :
    List (Dialect × Fault) → List (Dialect × Fault)
  | [] => []
  | (dialect, fault) :: rest =>
    (match entries.lookup dialect with
      | some p => fault.unfold dialect p
      | none => [(dialect, fault)]) ++ unfoldEach entries rest

end

theorem Fault.unfold_delegate (dialect : Dialect) (d : Delegate) (fault : Fault) :
    fault.unfold dialect (.delegate d) = [(dialect, fault)] := by
  cases fault <;> simp only [unfold]

theorem Fault.unfoldEach_append (registry : List (Dialect × Parser))
    (a b : List (Dialect × Fault)) :
    unfoldEach registry (a ++ b) = unfoldEach registry a ++ unfoldEach registry b := by
  induction a with
  | nil => simp only [unfoldEach, List.nil_append]
  | cons e rest ih =>
    obtain ⟨dialect, fault⟩ := e
    rw [List.cons_append, unfoldEach, unfoldEach, ih, List.append_assoc]

theorem Fault.unfoldEach_singleton {registry : List (Dialect × Parser)} {dialect : Dialect}
    {p : Parser} (h : registry.lookup dialect = some p) (fault : Fault) :
    unfoldEach registry [(dialect, fault)] = fault.unfold dialect p := by
  simp only [unfoldEach, h, List.append_nil]

def Process.unfolded (unfold : Fault → List (Dialect × Fault)) :
    Except Fault Unit → Except Fault (List (Dialect × Fault))
  | .ok () => .ok []
  | .error fault => if fault.isInterrupt then .error fault else .ok (unfold fault)

/-- The account of an operation: its calls are calls at leaves in order, and what it ends with,
unfolded, is what they add up to. An ordinary fault stands for some failure. -/
structure Account (operation : Lifecycle) (leaves : List Leaf)
    (unfold : Fault → List (Dialect × Fault)) (trace : Trace) (result : Except Fault Unit) :
    Prop where
  calls : trace.calls = trace.leafCalls.map (LeafCall.call operation)
  leaves : (trace.leafCalls.map LeafCall.leaf).Sublist leaves
  tally : Tally (trace.leafCalls.map LeafCall.ending) (unfolded unfold result)
  stands : ∀ fault, result = .error fault → fault.isInterrupt = false → unfold fault ≠ []

structure RoundAccount (operation : Lifecycle) (leaves : List Leaf)
    (registry : List (Dialect × Parser)) (trace : Trace)
    (result : Except Fault (List (Dialect × Fault))) : Prop where
  calls : trace.calls = trace.leafCalls.map (LeafCall.call operation)
  leaves : (trace.leafCalls.map LeafCall.leaf).Sublist leaves
  tally : Tally (trace.leafCalls.map LeafCall.ending) (result.map (Fault.unfoldEach registry))
  stands : ∀ failures, result = .ok failures → Fault.unfoldEach registry failures = [] →
    failures = []

namespace Errand

variable {number : Nat} {operation : Lifecycle} {remember : Bool} {errand : Errand} {w : World}

theorem after_since (h : w.trace <+: (errand.done w).trace) :
    (errand.after number operation remember w).since w =
      (errand.done w).since w ++ .visited (errand.visit (.dispatcher number) operation w) ::
        (errand.warnings operation w).map Event.logged := by
  apply World.since_eq
  rw [after_trace, ← List.append_assoc, ← World.trace_eq_append_since h]

theorem after_since_calls (h : w.trace <+: (errand.done w).trace) :
    ((errand.after number operation remember w).since w).calls =
      ((errand.done w).since w).calls := by
  rw [after_since h, Trace.calls_append]
  simp [Trace.calls]

theorem after_since_leafCalls (h : w.trace <+: (errand.done w).trace) :
    ((errand.after number operation remember w).since w).leafCalls =
      ((errand.done w).since w).leafCalls ++
        ((errand.visit (.dispatcher number) operation w).leafCall?).toList := by
  rw [after_since h, Trace.leafCalls_append]
  have hone : Trace.visits (.visited (errand.visit (.dispatcher number) operation w) ::
      (errand.warnings operation w).map Event.logged) =
        [errand.visit (.dispatcher number) operation w] := by
    rw [← List.singleton_append, Trace.visits_append, Trace.visits_logged]
    rfl
  congr 1
  unfold Trace.leafCalls
  rw [hone, List.filterMap_cons, List.filterMap_nil]
  cases (errand.visit (.dispatcher number) operation w).leafCall? <;> rfl

end Errand

section

variable (number : Nat) (operation : Lifecycle) (remember : Bool) (dialect : Dialect)
  (d : Delegate) (w : World)

theorem Delegate.done_since :
    let errand := Parser.errand operation (dialect, .delegate d)
    (errand.done w).since w = [.called (.lifecycle d.name operation)] :=
  World.since_eq (congrArg World.trace (d.outcome_perform operation w))

/-- The visit of a delegate is one call, which ends as the visit does. -/
theorem Delegate.after_leafCalls :
    let errand := Parser.errand operation (dialect, .delegate d)
    ((errand.after number operation remember w).since w).leafCalls =
      [⟨⟨number, dialect, d⟩, fault? (errand.result w)⟩] := by
  intro errand
  rw [Errand.after_since_leafCalls (Parser.errand_prefix operation _ w),
    Delegate.done_since]
  rfl

theorem Delegate.account :
    let errand := Parser.errand operation (dialect, .delegate d)
    Account operation ((Parser.delegate d).leavesAt number dialect)
      (Fault.unfold dialect (.delegate d)) ((errand.after number operation remember w).since w)
      (errand.result w) := by
  intro errand
  have hleaf : ((errand.after number operation remember w).since w).leafCalls = _ :=
    d.after_leafCalls number operation remember dialect w
  refine ⟨?_, ?_, ?_, ?_⟩
  · rw [Errand.after_since_calls (Parser.errand_prefix operation _ w),
      Delegate.done_since, hleaf]
    rfl
  · rw [hleaf]
    exact List.Sublist.refl _
  · rw [hleaf]
    show Tally [(dialect, fault? (errand.result w))] _
    cases errand.result w with
    | ok value => exact .returned .nil
    | error fault =>
      unfold unfolded
      dsimp only
      split_ifs with hf
      · exact .interrupted hf
      · rw [Fault.unfold_delegate]
        exact .failed (by simpa using hf) .nil
  · intro fault _ _
    rw [Fault.unfold_delegate]
    exact List.cons_ne_nil _ _

end

theorem Errand.unfolded_of_settled {errand : Errand} {w : World}
    {registry : List (Dialect × Parser)} (h : interrupt? (errand.result w) = none)
    (found : registry.lookup errand.dialect = some errand.parser) :
    unfolded (Fault.unfold errand.dialect errand.parser) (errand.result w) =
      .ok (Fault.unfoldEach registry (errand.failure? w).toList) := by
  unfold Errand.failure?
  cases hr : errand.result w with
  | ok value => simp only [unfolded, fault?, Option.map_none, Option.toList_none, Fault.unfoldEach]
  | error fault =>
    rw [hr, interrupt?_error] at h
    have hf : ¬ fault.isInterrupt := by
      intro hi
      rw [if_pos hi] at h
      cases h
    unfold unfolded
    dsimp only
    rw [if_neg hf]
    exact congrArg Except.ok (Fault.unfoldEach_singleton found fault).symm

/-- A failure that stands for none is no failure. -/
theorem Errand.failure?_eq_none {errand : Errand} {w : World}
    {registry : List (Dialect × Parser)} (h : interrupt? (errand.result w) = none)
    (found : registry.lookup errand.dialect = some errand.parser)
    (stands : ∀ fault, errand.result w = .error fault → fault.isInterrupt = false →
      Fault.unfold errand.dialect errand.parser fault ≠ [])
    (hnil : Fault.unfoldEach registry (errand.failure? w).toList = []) :
    errand.failure? w = none := by
  cases hr : errand.result w with
  | ok value => rw [Errand.failure?, hr, fault?, Option.map_none]
  | error fault =>
    have hf : fault.isInterrupt = false := by
      rw [hr, interrupt?_error] at h
      simpa using h
    rw [Errand.failure?, hr, fault?, Option.map_some, Option.toList_some,
      Fault.unfoldEach_singleton found] at hnil
    exact absurd hnil (stands fault hr hf)

namespace RoundAccount

variable {operation : Lifecycle} {leaves more : List Leaf} {registry : List (Dialect × Parser)}
  {trace trace' : Trace}

/-- A visit that is interrupted is the last one. -/
theorem interrupted {unfold : Fault → List (Dialect × Fault)} {fault : Fault}
    (h : Account operation leaves unfold trace (.error fault)) (hf : fault.isInterrupt) :
    RoundAccount operation (leaves ++ more) registry trace (.error fault) := by
  refine ⟨h.calls, h.leaves.trans (List.sublist_append_left _ _), ?_, fun failures h => by cases h⟩
  have ht := h.tally
  rw [unfolded, if_pos hf] at ht
  exact ht

/-- A visit that is settled comes before the rest of a round. -/
theorem cons {errand : Errand} {w : World} {result : Except Fault (List (Dialect × Fault))}
    (h : interrupt? (errand.result w) = none)
    (found : registry.lookup errand.dialect = some errand.parser)
    (first : Account operation leaves (Fault.unfold errand.dialect errand.parser) trace
      (errand.result w))
    (rest : RoundAccount operation more registry trace' result) :
    RoundAccount operation (leaves ++ more) registry (trace ++ trace')
      (result.map ((errand.failure? w).toList ++ ·)) := by
  refine ⟨?_, ?_, ?_, fun failures hresult hnil => ?_⟩
  · rw [Trace.calls_append, first.calls, rest.calls, Trace.leafCalls_append, List.map_append]
  · rw [Trace.leafCalls_append, List.map_append]
    exact first.leaves.append rest.leaves
  · have ht := first.tally
    rw [Errand.unfolded_of_settled h found] at ht
    have hall := ht.append rest.tally
    rw [Trace.leafCalls_append, List.map_append]
    convert hall using 1
    cases result with
    | ok failures => exact congrArg Except.ok (Fault.unfoldEach_append ..)
    | error fault => rfl
  · cases result with
    | error fault => cases hresult
    | ok failures' =>
      cases hresult
      rw [Fault.unfoldEach_append, List.append_eq_nil_iff] at hnil
      rw [Errand.failure?_eq_none h found first.stands hnil.1, rest.stands failures' rfl hnil.2]
      rfl

end RoundAccount

theorem Dispatcher.Round.account {number : Nat} {operation : Lifecycle} {errands : List Errand}
    {w final : World} {result : Except Fault (List (Dialect × Fault))}
    (registry : List (Dialect × Parser))
    (appends : ∀ errand ∈ errands, ∀ w, w.trace <+: (errand.done w).trace)
    (found : ∀ errand ∈ errands, registry.lookup errand.dialect = some errand.parser)
    (each : ∀ errand ∈ errands, ∀ w,
      Account operation (errand.parser.leavesAt number errand.dialect)
        (Fault.unfold errand.dialect errand.parser)
        ((errand.after number operation operation.remembers w).since w) (errand.result w))
    (round : Dispatcher.Round number operation operation.remembers errands w result final) :
    RoundAccount operation (errands.flatMap fun e => e.parser.leavesAt number e.dialect) registry
      (final.since w) result := by
  induction round with
  | done w =>
    rw [World.since_eq (List.append_nil _).symm]
    exact ⟨rfl, List.Sublist.refl _, .nil, fun failures h _ => (Except.ok.inj h).symm⟩
  | @interrupted errand rest w fault h =>
    have he := each errand List.mem_cons_self w
    obtain ⟨hr, hf⟩ := interrupt?_eq_some.mp h
    rw [hr] at he
    rw [List.flatMap_cons]
    exact .interrupted he hf
  | @settled errand rest w final result h next ih =>
    have hrest := ih (fun e hm => appends e (List.mem_cons_of_mem _ hm))
      (fun e hm => found e (List.mem_cons_of_mem _ hm))
      (fun e hm => each e (List.mem_cons_of_mem _ hm))
    have hnext := next.steps (Parser.prefix_steps operation [number]) List.mem_cons_self
      fun e hm => appends e (List.mem_cons_of_mem _ hm)
    have hafter : w.trace <+: (errand.after number operation operation.remembers w).trace :=
      (appends errand List.mem_cons_self w).trans errand.done_prefix_after
    rw [World.since_trans hafter hnext, List.flatMap_cons]
    exact .cons h (found errand List.mem_cons_self) (each errand List.mem_cons_self w) hrest

/-- How an operation on a dispatcher ends follows from what its visits come to. -/
theorem RoundAccount.finish {operation : Lifecycle} {leaves : List Leaf} {d : Dispatcher}
    {registry : List (Dialect × Parser)} {trace : Trace}
    {result : Except Fault (List (Dialect × Fault))} (dialect : Dialect)
    (h : RoundAccount operation leaves registry trace result)
    (interrupts : ∀ fault, result = .error fault → fault.isInterrupt) :
    Account operation leaves (Fault.unfold dialect (.dispatcher d registry)) trace
      (Dispatcher.finish operation result) := by
  obtain ⟨calls, leaves, tally, stands⟩ := h
  refine ⟨calls, leaves, ?_, ?_⟩
  · cases result with
    | error fault =>
      rw [Dispatcher.finish, unfolded, if_pos (interrupts fault rfl)]
      exact tally
    | ok failures =>
      cases failures with
      | nil => exact tally
      | cons failure rest => exact tally
  · intro fault hfault hf
    cases result with
    | error fault' =>
      cases hfault
      exact absurd (interrupts fault rfl) (by simp [hf])
    | ok failures =>
      cases failures with
      | nil => cases hfault
      | cons failure rest =>
        cases hfault
        intro hnil
        rw [Fault.unfold] at hnil
        exact absurd (stands _ rfl hnil) (List.cons_ne_nil _ _)

theorem Account.congr {operation : Lifecycle} {leaves : List Leaf}
    {unfold : Fault → List (Dialect × Fault)} {trace trace' : Trace} {result : Except Fault Unit}
    (h : Account operation leaves unfold trace result) (hcalls : trace'.calls = trace.calls)
    (hleaf : trace'.leafCalls = trace.leafCalls) :
    Account operation leaves unfold trace' result := by
  obtain ⟨calls, leaves, tally, stands⟩ := h
  rw [← hcalls, ← hleaf] at calls
  rw [← hleaf] at leaves tally
  exact ⟨calls, leaves, tally, stands⟩

theorem Account.mono {operation : Lifecycle} {leaves more : List Leaf}
    {unfold : Fault → List (Dialect × Fault)} {trace : Trace} {result : Except Fault Unit}
    (h : Account operation leaves unfold trace result) (hl : leaves.Sublist more) :
    Account operation more unfold trace result :=
  { h with leaves := h.leaves.trans hl }

theorem Dispatcher.Performed.account {operation : Lifecycle} {d : Dispatcher}
    {registry : List (Dialect × Parser)} {w final : World} {result : Except Fault Unit}
    (dialect : Dialect) (nodup : (registry.map Prod.fst).Nodup)
    (each : ∀ e ∈ registry, ∀ w,
      Account operation (e.2.leavesAt d.number e.1) (Fault.unfold e.1 e.2)
        (((Parser.errand operation e).after d.number operation operation.remembers w).since w)
        ((Parser.errand operation e).result w))
    (performed : d.Performed operation registry w result final) :
    Account operation (Parser.leavesOf d.number registry)
      (Fault.unfold dialect (.dispatcher d registry)) (final.since w) result := by
  cases performed with
  | idle hop h =>
    rw [World.since_eq rfl]
    exact ⟨rfl, List.nil_sublist _, .nil, fun fault hfault => by cases hfault⟩
  | @round result final h =>
    have hleaves : (Parser.performEach operation (d.pending operation registry w)).flatMap
        (fun e => e.parser.leavesAt d.number e.dialect) =
          Parser.leavesOf d.number (d.pending operation registry w) := by
      rw [Parser.leavesOf_eq_flatMap, Parser.performEach_eq_map, List.flatMap_map]
      rfl
    have haccount := h.account registry ?_ ?_ ?_
    · refine (haccount.finish dialect ?_).mono ?_
      · rintro fault rfl
        exact h.isInterrupt
      · rw [hleaves, Parser.leavesOf_eq_flatMap, Parser.leavesOf_eq_flatMap]
        exact (d.pending_sublist operation registry w).flatMap _
    · intro errand herrand w'
      obtain ⟨e, he, rfl⟩ := Dispatcher.mem_of_mem_pending herrand
      exact Parser.errand_prefix operation e w'
    · intro errand herrand
      obtain ⟨e, he, rfl⟩ := Dispatcher.mem_of_mem_pending herrand
      exact Registry.lookup_of_mem nodup he
    · intro errand herrand w'
      obtain ⟨e, he, rfl⟩ := Dispatcher.mem_of_mem_pending herrand
      exact each e he w'

/-- The visit of a parser is accounted for by its calls, and adds none of its own. -/
theorem Parser.account {p : Parser} (built : p.Built) (operation : Lifecycle) (number : Nat)
    (dialect : Dialect) (w : World) :
    let errand := Parser.errand operation (dialect, p)
    Account operation (p.leavesAt number dialect) (Fault.unfold dialect p)
      ((errand.after number operation operation.remembers w).since w) (errand.result w) := by
  induction p generalizing number dialect w with
  | delegate d => exact d.account number operation _ dialect w
  | dispatcher d registry ih =>
    intro errand
    have hprefix : w.trace <+: (errand.done w).trace :=
      (dispatcher d registry).prefix_perform operation w
    have performed := (perform_performed operation d registry w).account dialect built.nodup
      fun e he => ih e he (built.part he) d.number e.1
    refine performed.congr (Errand.after_since_calls hprefix) ?_
    rw [Errand.after_since_leafCalls hprefix]
    exact List.append_nil _

theorem Parser.answer_account {d : Dispatcher} {registry : List (Dialect × Parser)}
    (built : (Parser.dispatcher d registry).Built) (operation : Lifecycle) (w : World) :
    Account operation (Parser.dispatcher d registry).leaves
      (Fault.unfold d.default (.dispatcher d registry))
      ((Parser.dispatcher d registry).answer operation w).trace
      ((Parser.dispatcher d registry).answer operation w).result :=
  (perform_performed operation d registry w).account d.default built.nodup
    fun e he => Parser.account (built.part he) operation d.number e.1

end BuildDialect
