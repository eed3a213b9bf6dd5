import BuildDialect.Proofs.Parser.Record

/-!
What a fan-out does, call by call. It calls its parsers in order, up to the first interrupt. A call
that ends in any other way counts as done; if it failed, there is a warning about it, and the
failure is kept. What is kept is raised at the end, unless an interrupt comes first.
-/
namespace BuildDialect

open Process

def Lifecycle.warning (operation : Lifecycle) (failure : Dialect × Fault) : LogRecord :=
  ⟨.warning, .dispatch,
    s!"{operation.name}() failed for {failure.1.name} parser: " ++ failure.2.message⟩

/-- A call in a fan-out: the errand that is run, and the world in which it is run. -/
structure Attempt where
  errand : Errand
  before : World

namespace Attempt

def result (a : Attempt) : Except Fault Unit := a.errand.result a.before

def ending (a : Attempt) : Ending := (a.errand.dialect, fault? a.result)

/-- Whether a call ends other than by an interrupt. -/
def settled (a : Attempt) : Bool := a.ending.settled

def failure? (a : Attempt) : Option (Dialect × Fault) :=
  match a.result with
  | .ok () => none
  | .error fault => if fault.isInterrupt then none else some (a.errand.dialect, fault)

/-- What happens while a call is under way. -/
def within (a : Attempt) : Trace := (a.errand.done a.before).since a.before

/-- What the dispatcher itself adds to the trace after a call. -/
def told (number : Nat) (operation : Lifecycle) (a : Attempt) : Trace :=
  .visited ⟨.dispatcher number, operation, a.errand.dialect, a.errand.parser, fault? a.result⟩ ::
    (a.failure?.toList.map operation.warning).map .logged

def worldAfter (number : Nat) (operation : Lifecycle) (remember : Bool) (w : World)
    (calls : List Attempt) : World :=
  calls.foldl (fun u a => a.errand.after number operation remember u) w

variable {a : Attempt}

theorem settled_iff : a.settled = true ↔ interrupt? a.result = none := by
  unfold settled ending
  cases a.result with
  | ok value => exact ⟨fun _ => rfl, fun _ => rfl⟩
  | error fault => simp [Ending.settled, fault?, interrupt?_error]

theorem not_settled_iff : a.settled = false ↔
    ∃ fault, a.result = .error fault ∧ fault.isInterrupt := by
  rw [← Bool.not_eq_true, settled_iff, ← ne_eq, Option.ne_none_iff_exists']
  simp only [interrupt?_eq_some]

theorem failure?_eq (h : a.settled = true) : a.failure? = a.ending.failure? := by
  rw [settled_iff] at h
  unfold failure? ending Ending.failure?
  cases hr : a.result with
  | ok value => rfl
  | error fault =>
    rw [hr, interrupt?_error] at h
    have hf : ¬ fault.isInterrupt := by
      intro hi
      rw [if_pos hi] at h
      cases h
    exact if_neg hf

theorem failure?_eq_none_iff (h : a.settled = true) : a.failure? = none ↔ a.result = .ok () := by
  rw [failure?_eq h]
  unfold ending Ending.failure?
  cases a.result with
  | ok value => exact ⟨fun _ => rfl, fun _ => rfl⟩
  | error fault => simp [fault?]

/-- Where no call is interrupted, all have returned if there is no failure. -/
theorem returned_iff {calls : List Attempt} (h : ∀ a ∈ calls, a.settled) :
    calls.filterMap failure? = [] ↔ ∀ a ∈ calls, a.result = .ok () := by
  rw [List.filterMap_eq_nil_iff]
  exact forall₂_congr fun a ha => failure?_eq_none_iff (h a ha)

theorem warnings_eq (operation : Lifecycle) (a : Attempt) :
    a.errand.warnings operation a.before = a.failure?.toList.map operation.warning := by
  have hresult : a.errand.result a.before = a.result := rfl
  unfold Errand.warnings failure?
  rw [hresult]
  cases a.result with
  | ok value => rfl
  | error fault =>
    dsimp only
    split_ifs <;> rfl

/-- The trace after a call: what happens in it, and then what the dispatcher adds. -/
theorem after_trace {number : Nat} {operation : Lifecycle} {remember : Bool}
    (appends : a.before.trace <+: (a.errand.done a.before).trace) :
    (a.errand.after number operation remember a.before).trace =
      a.before.trace ++ (a.within ++ a.told number operation) := by
  rw [Errand.after_trace, warnings_eq, ← List.append_assoc, within,
    ← World.trace_eq_append_since appends]
  rfl

end Attempt

/-- Calls that are made one after the other, each in the world that those before it leave. What the
caller adds to the trace after a call, and the world that it leaves, are parameters. -/
structure Attempt.Chain (told : Attempt → Trace) (next : Attempt → World) (errands : List Errand)
    (w final : World) (result : Except Fault (List (Dialect × Fault)))
    (calls : List Attempt) : Prop where
  order : calls.map Attempt.errand <+: errands
  all : (∀ a ∈ calls, a.settled) → calls.map Attempt.errand = errands
  before : ∀ front a back, calls = front ++ a :: back →
    a.before = front.foldl (fun u a => next ⟨a.errand, u⟩) w
  after : final = calls.foldl (fun u a => next ⟨a.errand, u⟩) w
  trace : final.trace = w.trace ++ calls.flatMap fun a => a.within ++ told a
  tally : Tally (calls.map Attempt.ending) result

namespace Attempt.Chain

variable {told : Attempt → Trace} {next : Attempt → World} {errand : Errand}
  {errands rest : List Errand} {w final : World} {result : Except Fault (List (Dialect × Fault))}
  {calls : List Attempt}

theorem nil (w : World) : Chain told next [] w w (.ok []) [] where
  order := List.prefix_refl _
  all := fun _ => rfl
  before := fun front a back h => by cases List.nil_eq_append_iff.mp h |>.2
  after := rfl
  trace := (List.append_nil _).symm
  tally := .nil

/-- A call that is interrupted is the last one. -/
theorem interrupted (adds : (next ⟨errand, w⟩).trace = w.trace ++
      (within ⟨errand, w⟩ ++ told ⟨errand, w⟩)) {fault : Fault}
    (h : interrupt? (errand.result w) = some fault) :
    Chain told next (errand :: rest) w (next ⟨errand, w⟩) (.error fault) [⟨errand, w⟩] := by
  obtain ⟨hr, hf⟩ := interrupt?_eq_some.mp h
  have hunsettled : settled ⟨errand, w⟩ = false := not_settled_iff.mpr ⟨fault, hr, hf⟩
  have hending : ending ⟨errand, w⟩ = (errand.dialect, some fault) := by
    unfold ending Attempt.result
    rw [hr]
    rfl
  constructor
  · exact List.prefix_append [errand] rest
  · intro hall
    rw [hall _ List.mem_cons_self] at hunsettled
    cases hunsettled
  · intro front a back hsplit
    cases front with
    | nil =>
      cases hsplit
      rfl
    | cons first front => simp at hsplit
  · rfl
  · rw [List.flatMap_singleton]
    exact adds
  · rw [List.map_singleton, hending]
    exact .interrupted hf

/-- A call that is settled comes before those for the rest of the errands. -/
theorem cons (adds : (next ⟨errand, w⟩).trace = w.trace ++
      (within ⟨errand, w⟩ ++ told ⟨errand, w⟩)) (h : interrupt? (errand.result w) = none)
    (chain : Chain told next rest (next ⟨errand, w⟩) final result calls) :
    Chain told next (errand :: rest) w final (result.map ((errand.failure? w).toList ++ ·))
      (⟨errand, w⟩ :: calls) := by
  constructor
  · exact (List.prefix_append_right_inj [errand]).mpr chain.order
  · intro hall
    rw [List.map_cons, chain.all fun a ha => hall a (List.mem_cons_of_mem _ ha)]
  · intro front a back hsplit
    cases front with
    | nil =>
      cases hsplit
      rfl
    | cons first front =>
      obtain ⟨rfl, hcalls⟩ := List.cons.inj hsplit
      exact chain.before front a back hcalls
  · exact chain.after
  · rw [chain.trace, List.flatMap_cons, adds, List.append_assoc]
  · exact @Tally.visit errand .startup .close w _ _ h chain.tally

/-- An interrupt is that of a call, and no call comes after it. -/
theorem last (h : Chain told next errands w final result calls) {front back : List Attempt}
    {a : Attempt} (hsplit : calls = front ++ a :: back) {fault : Fault}
    (hr : a.result = .error fault) (hf : fault.isInterrupt) :
    back = [] ∧ result = .error fault := by
  have htally := h.tally
  have hending : a.ending = (a.errand.dialect, some fault) := by
    rw [Attempt.ending, hr]
    rfl
  rw [hsplit, List.map_append, List.map_cons, hending] at htally
  obtain ⟨hback, hresult⟩ := htally.interrupt hf
  exact ⟨List.map_eq_nil_iff.mp hback, hresult⟩

theorem last_of_not_settled (h : Chain told next errands w final result calls)
    (front : List Attempt) (a : Attempt) (back : List Attempt) (hsplit : calls = front ++ a :: back)
    (ha : a.settled = false) : back = [] := by
  obtain ⟨fault, hr, hf⟩ := Attempt.not_settled_iff.mp ha
  exact (h.last hsplit hr hf).1

theorem of_error {fault : Fault} (h : Chain told next errands w final (.error fault) calls) :
    fault.isInterrupt ∧ ∃ a ∈ calls, a.result = .error fault := by
  obtain ⟨hf, front, dialect, hsplit, -⟩ := h.tally.of_error
  obtain ⟨-, last, rfl, -, hlast⟩ := List.map_eq_append_iff.mp hsplit
  obtain ⟨a, rfl, ha⟩ := List.map_eq_singleton_iff.mp hlast
  have hfault : fault? a.result = some fault := congrArg Prod.snd ha
  refine ⟨hf, a, List.mem_append_right _ List.mem_cons_self, ?_⟩
  cases hr : a.result with
  | ok value =>
    rw [hr] at hfault
    cases hfault
  | error fault' =>
    rw [hr] at hfault
    cases hfault
    rfl

theorem of_ok {failures : List (Dialect × Fault)}
    (h : Chain told next errands w final (.ok failures) calls) :
    (∀ a ∈ calls, a.settled) ∧ calls.filterMap Attempt.failure? = failures := by
  obtain ⟨hsettled, hfailures⟩ := h.tally.of_ok
  have hall : ∀ a ∈ calls, a.settled := fun a ha => hsettled a.ending (List.mem_map_of_mem ha)
  refine ⟨hall, ?_⟩
  rw [← hfailures, List.filterMap_map]
  exact List.filterMap_congr fun a ha => Attempt.failure?_eq (hall a ha)

theorem error_iff (h : Chain told next errands w final result calls) {fault : Fault} :
    result = .error fault ↔ fault.isInterrupt ∧ ∃ a ∈ calls, a.result = .error fault := by
  constructor
  · rintro rfl
    exact h.of_error
  · rintro ⟨hf, a, ha, hr⟩
    obtain ⟨front, back, hsplit⟩ := List.append_of_mem ha
    exact (h.last hsplit hr hf).2

/-- If no call is interrupted, the failures of the calls are what comes of them. -/
theorem ok_iff (h : Chain told next errands w final result calls)
    {failures : List (Dialect × Fault)} : result = .ok failures ↔
      (∀ a ∈ calls, a.settled) ∧ calls.filterMap Attempt.failure? = failures := by
  constructor
  · rintro rfl
    exact h.of_ok
  · rintro ⟨hall, rfl⟩
    cases result with
    | ok kept => rw [h.of_ok.2]
    | error fault =>
      obtain ⟨hf, a, ha, hr⟩ := h.of_error
      have hunsettled : a.settled = false := Attempt.not_settled_iff.mpr ⟨fault, hr, hf⟩
      rw [hall a ha] at hunsettled
      cases hunsettled

end Attempt.Chain

structure Dispatcher.Attempts (number : Nat) (operation : Lifecycle) (remember : Bool)
    (errands : List Errand) (w final : World) (result : Except Fault (List (Dialect × Fault)))
    (calls : List Attempt) : Prop extends
    Attempt.Chain (Attempt.told number operation)
      (fun a => a.errand.after number operation remember a.before) errands w final result
      calls where
  closed : ∀ dialect, dialect ∈ final.closed number ↔
    dialect ∈ w.closed number ∨
      remember ∧ ∃ a ∈ calls, a.settled ∧ a.errand.dialect = dialect

/-- What a dispatcher may rely on in its errands: they only add to the trace, and they leave alone
what it counts as closed. -/
structure Errand.Apart (number : Nat) (errand : Errand) : Prop where
  appends : ∀ w, w.trace <+: (errand.done w).trace
  own : ∀ w, (errand.done w).closed number = w.closed number

theorem Parser.errand_isApart {number : Nat} {operation : Lifecycle} {e : Dialect × Parser}
    (h : number ∉ e.2.numbers) : (errand operation e).Apart number where
  appends := errand_prefix operation e
  own := errand_closed operation h

namespace Dispatcher.Attempts

variable {number : Nat} {operation : Lifecycle} {remember : Bool} {errand : Errand}
  {errands rest : List Errand} {w final : World} {result : Except Fault (List (Dialect × Fault))}
  {calls : List Attempt}

theorem nil (w : World) : Attempts number operation remember [] w w (.ok []) [] where
  toChain := .nil w
  closed := fun dialect => by simp

/-- The closed dialects after one call: if it is settled and that is remembered, its own more. -/
theorem mem_closed_after (apart : errand.Apart number) (dialect : Dialect) :
    dialect ∈ (errand.after number operation remember w).closed number ↔
      dialect ∈ w.closed number ∨
        remember ∧ Attempt.settled ⟨errand, w⟩ ∧ errand.dialect = dialect := by
  cases remember with
  | false =>
    rw [Errand.after_closed_of_forget, apart.own]
    simp
  | true =>
    rw [Errand.mem_after_closed, apart.own, Attempt.settled_iff, eq_comm (a := dialect)]
    exact or_congr_right (by simp [Attempt.result])

theorem interrupted (apart : errand.Apart number) {fault : Fault}
    (h : interrupt? (errand.result w) = some fault) :
    Attempts number operation remember (errand :: rest) w
      (errand.after number operation remember w) (.error fault) [⟨errand, w⟩] where
  toChain := .interrupted (Attempt.after_trace (a := ⟨errand, w⟩) (apart.appends w)) h
  closed := by
    obtain ⟨hr, hf⟩ := interrupt?_eq_some.mp h
    have hunsettled : Attempt.settled ⟨errand, w⟩ = false :=
      Attempt.not_settled_iff.mpr ⟨fault, hr, hf⟩
    intro dialect
    rw [mem_closed_after apart, hunsettled]
    simp [hunsettled]

theorem cons (apart : errand.Apart number) (h : interrupt? (errand.result w) = none)
    (next : Attempts number operation remember rest (errand.after number operation remember w)
      final result calls) :
    Attempts number operation remember (errand :: rest) w final
      (result.map ((errand.failure? w).toList ++ ·)) (⟨errand, w⟩ :: calls) where
  toChain := .cons (Attempt.after_trace (a := ⟨errand, w⟩) (apart.appends w)) h next.toChain
  closed := by
    intro dialect
    rw [next.closed, mem_closed_after apart, or_assoc, ← and_or_left]
    simp only [List.exists_mem_cons_iff]

section

variable (h : Attempts number operation remember errands w final result calls)

include h

theorem interrupted_iff {fault : Fault} (hf : fault.isInterrupt) :
    finish operation result = .error fault ↔ ∃ a ∈ calls, a.result = .error fault := by
  constructor
  · intro hfinish
    cases result with
    | error fault' =>
      cases hfinish
      exact h.of_error.2
    | ok failures =>
      cases failures with
      | nil => cases hfinish
      | cons failure rest =>
        cases hfinish
        cases hf
  · intro hcall
    rw [h.error_iff.mpr ⟨hf, hcall⟩]
    rfl

theorem raised_iff {name : String} {failures : List (Dialect × Fault)} {caused : Bool} :
    finish operation result = .error (.lifecycle name failures caused) ↔
      (∀ a ∈ calls, a.settled) ∧ calls.filterMap Attempt.failure? ≠ [] ∧
        name = operation.name ∧ failures = calls.filterMap Attempt.failure? ∧ caused = true := by
  cases result with
  | error fault =>
    constructor
    · intro hfinish
      cases hfinish
      cases h.of_error.1
    · rintro ⟨hall, -⟩
      cases h.ok_iff.mpr ⟨hall, rfl⟩
  | ok kept =>
    obtain ⟨hall, rfl⟩ := h.of_ok
    cases hkept : calls.filterMap Attempt.failure? with
    | nil => simp [finish]
    | cons failure rest =>
      rw [finish, Except.error.injEq, Fault.lifecycle.injEq]
      constructor
      · rintro ⟨rfl, rfl, rfl⟩
        exact ⟨hall, List.cons_ne_nil _ _, rfl, rfl, rfl⟩
      · rintro ⟨-, -, rfl, rfl, rfl⟩
        exact ⟨rfl, rfl, rfl⟩

theorem returned_iff :
    finish operation result = .ok () ↔ ∀ a ∈ calls, a.result = .ok () := by
  cases result with
  | error fault =>
    obtain ⟨-, a, ha, hr⟩ := h.of_error
    constructor
    · intro hfinish
      cases hfinish
    · intro hall
      rw [hall a ha] at hr
      cases hr
  | ok kept =>
    obtain ⟨hall, rfl⟩ := h.of_ok
    rw [← Attempt.returned_iff hall]
    cases calls.filterMap Attempt.failure? with
    | nil => exact ⟨fun _ => rfl, fun _ => rfl⟩
    | cons failure rest => simp [finish]

end

end Dispatcher.Attempts

/-- The visits of a round are calls of its errands, one after the other. -/
theorem Dispatcher.Round.attempts {number : Nat} {operation : Lifecycle} {remember : Bool}
    {errands : List Errand} {w final : World} {result : Except Fault (List (Dialect × Fault))}
    (apart : ∀ errand ∈ errands, errand.Apart number)
    (round : Dispatcher.Round number operation remember errands w result final) :
    ∃ calls, Dispatcher.Attempts number operation remember errands w final result calls := by
  induction round with
  | done w => exact ⟨[], .nil w⟩
  | interrupted h => exact ⟨_, .interrupted (apart _ List.mem_cons_self) h⟩
  | settled h next ih =>
    obtain ⟨calls, hcalls⟩ := ih fun errand he => apart errand (List.mem_cons_of_mem _ he)
    exact ⟨_, hcalls.cons (apart _ List.mem_cons_self) h⟩

/-- A fan-out of a dispatcher over entries of a registry, set against the calls that it makes. -/
structure Dispatcher.FannedOut (number : Nat) (operation : Lifecycle) (remember : Bool)
    (entries : List (Dialect × Parser)) (w final : World) (result : Except Fault Unit)
    (calls : List Attempt) : Prop where
  /-- The parsers are called in order and each once, up to the first interrupt. -/
  order : calls.map Attempt.errand <+: Parser.performEach operation entries
  all : (∀ a ∈ calls, a.settled) → calls.map Attempt.errand = Parser.performEach operation entries
  last : ∀ front a back, calls = front ++ a :: back → a.settled = false → back = []
  before : ∀ front a back, calls = front ++ a :: back →
    a.before = Attempt.worldAfter number operation remember w front
  after : final = Attempt.worldAfter number operation remember w calls
  called : ∀ a ∈ calls, ∀ d, a.errand.parser = .delegate d →
    a.within = [.called (.lifecycle d.name operation)]
  /-- Nothing happens but the calls and what the dispatcher says after each of them. It logs the
  ordinary failures in order, also those that come before an interrupt. -/
  trace : final.trace = w.trace ++ calls.flatMap fun a => a.within ++ a.told number operation
  warnings : Trace.log (calls.flatMap (Attempt.told number operation)) =
    (calls.filterMap Attempt.failure?).map operation.warning
  closed : ∀ dialect, dialect ∈ final.closed number ↔
    dialect ∈ w.closed number ∨
      remember ∧ ∃ a ∈ calls, a.settled ∧ a.errand.dialect = dialect
  interrupted : ∀ fault, fault.isInterrupt →
    (result = .error fault ↔ ∃ a ∈ calls, a.result = .error fault)
  raised : ∀ name failures caused, result = .error (.lifecycle name failures caused) ↔
    (∀ a ∈ calls, a.settled) ∧ calls.filterMap Attempt.failure? ≠ [] ∧
      name = operation.name ∧ failures = calls.filterMap Attempt.failure? ∧ caused = true
  returned : result = .ok () ↔ ∀ a ∈ calls, a.result = .ok ()

namespace Attempt

/-- What is logged about calls are the warnings about their failures, if that is so after each. -/
theorem log_flatMap {told : Attempt → Trace} {warning : Dialect × Fault → LogRecord}
    (each : ∀ a, Trace.log (told a) = a.failure?.toList.map warning) (calls : List Attempt) :
    Trace.log (calls.flatMap told) = (calls.filterMap failure?).map warning := by
  induction calls with
  | nil => rfl
  | cons a rest ih =>
    rw [List.flatMap_cons, Trace.log_append, ih, each, List.filterMap_cons]
    cases a.failure? <;> rfl

theorem log_told (number : Nat) (operation : Lifecycle) (a : Attempt) :
    Trace.log (a.told number operation) = a.failure?.toList.map operation.warning := by
  unfold told
  cases a.failure? <;> rfl

theorem within_delegate {operation : Lifecycle} {entries : List (Dialect × Parser)} {a : Attempt}
    (ha : a.errand ∈ Parser.performEach operation entries) {d : Delegate}
    (hd : a.errand.parser = .delegate d) : a.within = [.called (.lifecycle d.name operation)] := by
  obtain ⟨⟨dialect, p⟩, -, herrand⟩ := Parser.mem_performEach ha
  have hp : p = .delegate d := by
    rw [herrand] at hd
    exact hd
  subst hp
  unfold within
  rw [herrand]
  exact d.done_since operation dialect a.before

end Attempt

/-- A fan-out makes its calls in order up to the first interrupt; it warns of the failures among
them, counts as done what was not interrupted, and raises the failures if nothing was. -/
theorem Parser.fanOut_attempted (number : Nat) (operation : Lifecycle) (remember : Bool)
    {entries : List (Dialect × Parser)} (apart : ∀ e ∈ entries, number ∉ e.2.numbers) (w : World) :
    let fanned := (Dispatcher.fanOut number operation remember
      (performEach operation entries)).outcome w
    ∃ calls, Dispatcher.FannedOut number operation remember entries w fanned.2 fanned.1 calls := by
  intro fanned
  have hround := Dispatcher.visit_round number operation remember (performEach operation entries) w
  have hfanned : fanned = _ :=
    Dispatcher.outcome_fanOut number operation remember (performEach operation entries) w
  rw [hfanned]
  set visited := (Dispatcher.visit number operation remember
    (performEach operation entries)).outcome w
  have hapart : ∀ errand ∈ performEach operation entries, errand.Apart number := by
    intro errand herrand
    obtain ⟨e, he, rfl⟩ := mem_performEach herrand
    exact errand_isApart (apart e he)
  obtain ⟨calls, h⟩ := hround.attempts hapart
  refine ⟨calls, h.order, h.all, ?_, h.before, h.after, ?_, h.trace,
    Attempt.log_flatMap (Attempt.log_told number operation) calls, h.closed,
    fun fault => h.interrupted_iff, fun name failures caused => h.raised_iff, h.returned_iff⟩
  · exact h.last_of_not_settled
  · intro a ha d hd
    exact Attempt.within_delegate (h.order.subset (List.mem_map_of_mem ha)) hd

/-- A dispatcher fails at one of its parts, the next parser is interrupted, and the last one is not
called. -/
theorem Parser.fanOut_attempted_sample :
    let w := { World.fresh with
      script := fun _ n _ =>
        if n = 1 then some (.failure .os none)
        else if n = 3 then some (.interrupt .keyboard none) else none }
    let entries : List (Dialect × Parser) :=
      [(.pythonDsl, .dispatcher Sample.inner Sample.innerParts),
        (.skylark, .delegate ⟨3, "c", "c", [], []⟩), (.skylark, .delegate ⟨5, "d", "d", [], []⟩)]
    let fanned := (Dispatcher.fanOut 4 .close true (performEach .close entries)).outcome w
    (∀ e ∈ entries, 4 ∉ e.2.numbers) ∧ fanned.1 = .error (.interrupt .keyboard none) ∧
      fanned.2.trace.calls =
        [.lifecycle "a" .close, .lifecycle "b" .close, .lifecycle "c" .close] ∧
      fanned.2.closed 4 = [.pythonDsl] ∧
      ∃ calls, Dispatcher.FannedOut 4 .close true entries w fanned.2 fanned.1 calls := by
  intro w entries fanned
  have hapart : ∀ e ∈ entries, 4 ∉ e.2.numbers := by decide
  exact ⟨hapart, rfl, rfl, rfl, fanOut_attempted 4 .close true hapart w⟩

end BuildDialect
