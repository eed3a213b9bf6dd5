import BuildDialect.Proofs.Parser.Due

/-!
What an operation on a dispatcher reports. An interrupt of a delegate ends the operation and is
what it ends with. Otherwise the operation fails if a delegate has failed, and its fault stands for
the failures of all of them, however deep the delegates are.
-/
namespace BuildDialect

open Process

/-- The report of an operation on a dispatcher, set against its calls to delegates. -/
structure Reports (operation : Lifecycle) (d : Dispatcher) (registry : List (Dialect × Parser))
    (answer : Answer Unit) : Prop where
  calls : answer.trace.calls = answer.trace.leafCalls.map (LeafCall.call operation)
  inOrder : (answer.trace.leafCalls.map LeafCall.leaf).Sublist
    (Parser.dispatcher d registry).leaves
  interrupted : ∀ front c back fault, answer.trace.leafCalls = front ++ c :: back →
    c.fault = some fault → fault.isInterrupt → back = [] ∧ answer.result = .error fault
  returned : (∀ c ∈ answer.trace.leafCalls, c.settled) →
    (answer.result = .ok () ↔ ∀ c ∈ answer.trace.leafCalls, c.fault = none)
  /-- The fault lists failures, the first of which caused it. Unfolded, they are the failures of
  all calls. -/
  failed : (∀ c ∈ answer.trace.leafCalls, c.settled) → answer.result ≠ .ok () →
    ∃ fault first rest, answer.result = .error fault ∧
      fault = .lifecycle operation.name (first :: rest) true ∧ fault.cause? = some first.2 ∧
      Fault.unfoldEach registry (first :: rest) =
        answer.trace.leafCalls.filterMap LeafCall.failure?
  complete : operation = .reportProfile → (∀ c ∈ answer.trace.leafCalls, c.settled) →
    answer.trace.leafCalls.map LeafCall.leaf = (Parser.dispatcher d registry).leaves

/-- A dispatcher ends with an interrupt, or with a fault that lists failures. -/
theorem Dispatcher.Performed.fault {operation : Lifecycle} {d : Dispatcher}
    {registry : List (Dialect × Parser)} {w final : World} {fault : Fault}
    (performed : d.Performed operation registry w (.error fault) final) :
    fault.isInterrupt ∨ ∃ first rest, fault = .lifecycle operation.name (first :: rest) true := by
  generalize hr : Except.error fault = result at performed
  cases performed with
  | idle hop h => cases hr
  | @round result final h =>
    cases result with
    | error fault' =>
      cases hr
      exact Or.inl h.isInterrupt
    | ok failures =>
      cases failures with
      | nil => cases hr
      | cons first rest =>
        cases hr
        exact Or.inr ⟨first, rest, rfl⟩

/-- Without an interrupt, the failures of all endings are what there is to unfold. -/
theorem Tally.of_settled {endings : List Ending} {result : Except Fault (List (Dialect × Fault))}
    (h : Tally endings result) (settled : ∀ ending ∈ endings, ending.settled) :
    result = .ok (endings.filterMap Ending.failure?) := by
  cases result with
  | ok failures => rw [h.of_ok.2]
  | error fault =>
    obtain ⟨hi, front, dialect, rfl, _⟩ := h.of_error
    have hlast := settled (dialect, some fault) (by simp)
    rw [Ending.settled, Option.any_some, hi] at hlast
    cases hlast

theorem LeafCall.filterMap_failure? (calls : List LeafCall) :
    (calls.map ending).filterMap Ending.failure? = calls.filterMap failure? := by
  rw [List.filterMap_map]
  rfl

theorem LeafCall.filterMap_failure?_eq_nil {calls : List LeafCall} :
    calls.filterMap failure? = [] ↔ ∀ c ∈ calls, c.fault = none := by
  rw [List.filterMap_eq_nil_iff]
  have hnone : ∀ c : LeafCall, c.failure? = none ↔ c.fault = none := fun c => Option.map_eq_none_iff
  exact ⟨fun h c hc => (hnone c).mp (h c hc), fun h c hc => (hnone c).mpr (h c hc)⟩

namespace Account

variable {operation : Lifecycle} {leaves : List Leaf} {unfold : Fault → List (Dialect × Fault)}
  {trace : Trace} {result : Except Fault Unit}

theorem interrupted (h : Account operation leaves unfold trace result) {front back : List LeafCall}
    {c : LeafCall} {fault : Fault} (hcalls : trace.leafCalls = front ++ c :: back)
    (hc : c.fault = some fault) (hf : fault.isInterrupt) : back = [] ∧ result = .error fault := by
  have ht := h.tally
  have hending : c.ending = (c.leaf.dialect, some fault) := by rw [LeafCall.ending, hc]
  rw [hcalls, List.map_append, List.map_cons, hending] at ht
  obtain ⟨hback, hr⟩ := ht.interrupt hf
  refine ⟨List.map_eq_nil_iff.mp hback, ?_⟩
  cases result with
  | ok value => cases hr
  | error fault' =>
    rw [unfolded] at hr
    split_ifs at hr
    cases hr
    rfl

theorem unfolded_of_settled (h : Account operation leaves unfold trace result)
    (settled : ∀ c ∈ trace.leafCalls, c.settled) :
    unfolded unfold result = .ok (trace.leafCalls.filterMap LeafCall.failure?) := by
  rw [← LeafCall.filterMap_failure?]
  apply h.tally.of_settled
  intro ending hending
  obtain ⟨c, hc, rfl⟩ := List.mem_map.mp hending
  exact settled c hc

theorem interrupt?_of_settled (h : Account operation leaves unfold trace result)
    (settled : ∀ c ∈ trace.leafCalls, c.settled) : interrupt? result = none := by
  have hu := h.unfolded_of_settled settled
  cases result with
  | ok value => rfl
  | error fault =>
    rw [unfolded] at hu
    rw [interrupt?_error]
    split_ifs at hu ⊢ with hf
    rfl

theorem returned (h : Account operation leaves unfold trace result)
    (settled : ∀ c ∈ trace.leafCalls, c.settled) :
    result = .ok () ↔ ∀ c ∈ trace.leafCalls, c.fault = none := by
  have hu := h.unfolded_of_settled settled
  rw [← LeafCall.filterMap_failure?_eq_nil]
  cases result with
  | ok value => exact ⟨fun _ => (Except.ok.inj hu).symm, fun _ => rfl⟩
  | error fault =>
    rw [unfolded] at hu
    split_ifs at hu with hf
    refine ⟨(fun hok => by cases hok), fun hnil => ?_⟩
    rw [hnil] at hu
    exact absurd (Except.ok.inj hu) (h.stands fault rfl (by simpa using hf))

end Account

/-- An operation on a dispatcher reports all that became of its calls, in any world. -/
theorem Parser.answer_reports {d : Dispatcher} {registry : List (Dialect × Parser)}
    (built : (Parser.dispatcher d registry).Built) (operation : Lifecycle) (w : World) :
    Reports operation d registry ((Parser.dispatcher d registry).answer operation w) := by
  have account := answer_account built operation w
  refine ⟨account.calls, account.leaves, fun front c back fault => account.interrupted,
    account.returned, fun settled hfailed => ?_, fun hop settled => ?_⟩
  · have hu := account.unfolded_of_settled settled
    have hplain := account.interrupt?_of_settled settled
    have performed := perform_performed operation d registry w
    have hresult : ((dispatcher d registry).answer operation w).result =
      (((dispatcher d registry).perform operation).outcome w).1 := rfl
    rw [← hresult] at performed
    cases hr : ((dispatcher d registry).answer operation w).result with
    | ok value => exact absurd hr hfailed
    | error fault =>
      rw [hr] at performed hu hplain
      rw [interrupt?_error] at hplain
      have hf : ¬ fault.isInterrupt := fun hi => by simp [hi] at hplain
      obtain ⟨first, rest, rfl⟩ := performed.fault.resolve_left hf
      refine ⟨_, first, rest, rfl, rfl, rfl, ?_⟩
      rw [unfolded, if_neg hf, Fault.unfold] at hu
      exact Except.ok.inj hu
  · subst hop
    have distinct : Lifecycle.reportProfile = .close → (dispatcher d registry).numbers.Nodup :=
      fun hclose => by cases hclose
    have progress := answer_progress built distinct w
    rw [progress.all (account.interrupt?_of_settled settled)]
    exact dueAt_eq_leavesAt (p := dispatcher d registry) (fun _ _ _ => rfl) d.number d.default

theorem Parser.answer_reports_sample :
    let w := { World.fresh with
      script := fun _ n _ => if n = 1 then some (.failure .os none) else none }
    let answer := (dispatcher Sample.outer Sample.parts).answer .close w
    (dispatcher Sample.outer Sample.parts).Built ∧
      answer.trace.calls =
        [.lifecycle "a" .close, .lifecycle "b" .close, .lifecycle "c" .close] ∧
      answer.result = .error (.lifecycle "close"
        [(.pythonDsl, .lifecycle "close" [(.pythonDsl, .failure .os none)] true)] true) ∧
      Reports .close Sample.outer Sample.parts answer :=
  ⟨Sample.built, rfl, rfl, answer_reports Sample.built .close _⟩

end BuildDialect
