import BuildDialect.Proofs.Parser.Leak

/-!
What a start of a dispatcher comes to, for all settings and factories: which factories are called,
what is closed when one of them fails, and what is made when none does.
-/
namespace BuildDialect

open Process

namespace Registry

variable {α : Type}

theorem gather_dialects (entries : List (Dialect × α)) :
    (gather entries).map Prod.fst = (entries.map Prod.fst).eraseDups := by
  induction entries using List.reverseRecOn with
  | nil => rfl
  | append_singleton entries e ih =>
    rw [gather_concat, assign_dialects, List.map_append, List.eraseDups_append, ih]
    by_cases h : e.1 ∈ entries.map Prod.fst
    · simp only [List.mem_eraseDups, h, if_true]
      simp [List.removeAll, h]
    · simp only [List.mem_eraseDups, h, if_false]
      simp [List.removeAll, h, List.eraseDups_cons]

theorem lookup_replace (registry : List (Dialect × α)) (dialect other : Dialect) (entry : α) :
    (registry.map fun e => if e.1 = dialect then (dialect, entry) else e).lookup other =
      if other = dialect then (registry.lookup other).map fun _ => entry
      else registry.lookup other := by
  induction registry with
  | nil => simp
  | cons e rest ih =>
    rw [List.map_cons, List.lookup_cons, List.lookup_cons, ih]
    by_cases he : e.1 = dialect
    · by_cases ho : other = dialect
      · simp [he, ho]
      · have hne : (other == dialect) = false := by simpa using ho
        simp [he, ho, hne]
    · by_cases ho : other = dialect
      · have hne : (dialect == e.1) = false := by simpa using Ne.symm he
        simp [he, ho, hne]
      · simp [he, ho]

theorem lookup_assign (registry : List (Dialect × α)) (dialect other : Dialect) (entry : α) :
    (assign registry dialect entry).lookup other =
      if other = dialect then some entry else registry.lookup other := by
  have hany : (registry.lookup dialect).isSome = registry.any fun e => e.1 == dialect := by
    rw [Bool.eq_iff_iff, List.lookup_isSome_iff]
    simp only [List.any_eq_true, beq_iff_eq, @eq_comm _ dialect]
  unfold assign
  by_cases h : registry.any fun e => e.1 == dialect
  · obtain ⟨old, hold⟩ := Option.isSome_iff_exists.mp (hany.trans h)
    rw [if_pos h, lookup_replace]
    by_cases ho : other = dialect
    · simp [ho, hold]
    · simp [ho]
  · have hnone : registry.lookup dialect = none := by simpa [h] using hany
    rw [if_neg h, List.lookup_append, List.lookup_cons]
    by_cases ho : other = dialect
    · simp [ho, hnone]
    · have hne : (other == dialect) = false := by simpa using ho
      simp [ho, hne]

/-- What is gathered for a dialect is what comes last for it. -/
theorem lookup_gather (entries : List (Dialect × α)) (dialect : Dialect) :
    (gather entries).lookup dialect = entries.reverse.lookup dialect := by
  induction entries using List.reverseRecOn with
  | nil => rfl
  | append_singleton entries e ih =>
    rw [gather_concat, lookup_assign, ih, List.reverse_append, List.reverse_singleton,
      List.singleton_append, List.lookup_cons]
    by_cases h : dialect = e.1
    · simp [h]
    · have hne : (dialect == e.1) = false := by simpa using h
      simp [h, hne]

/-- A registry holds what was given for each dialect last, in the order in which the dialects were
given first. -/
structure Gathers (entries registry : List (Dialect × α)) : Prop where
  order : registry.map Prod.fst = (entries.map Prod.fst).eraseDups
  latest : ∀ dialect, registry.lookup dialect = entries.reverse.lookup dialect

theorem gathers_gather (entries : List (Dialect × α)) : Gathers entries (gather entries) :=
  ⟨gather_dialects entries, lookup_gather entries⟩

/-- A registry is accepted as it is if it has the default. -/
theorem ofEntries_dialects {registry : List (Dialect × α)} (nodup : (registry.map Prod.fst).Nodup)
    (default : Dialect) :
    ofEntries (registry.map fun e => (Key.dialect e.1, e.2)) default =
      if registry = [] then .error .empty
      else if default ∈ registry.map Prod.fst then .ok registry
      else .error (.defaultUnmapped default (registry.map Prod.fst)) := by
  have hforeign : (registry.map fun e => (Key.dialect e.1, e.2)).findSome?
      (fun e => e.1.foreign?) = none := by
    simp [List.findSome?_map, Key.foreign?]
  have hsame : ((registry.map fun e => (Key.dialect e.1, e.2)).filterMap fun e =>
      e.1.dialect?.map fun d => (d, e.2)) = registry := by
    simp [List.filterMap_map, Key.dialect?]
  unfold ofEntries
  rw [hforeign, hsame, gather_of_nodup nodup]
  by_cases hempty : registry = []
  · simp [hempty]
  · simp only [List.contains_iff_mem]
    simp [hempty]

end Registry

namespace Startup

/-- What calls to factories come to, one for each of some dialects in order, up to and including
the first that fails. The calls are counted on from a position. -/
structure Called (factories : List (Dialect × Factory)) (position : Nat) (dialects : List Dialect)
    (parsers : List (Dialect × Parser)) (failure : Option (Dialect × Fault)) : Prop where
  gives : ∀ i e, parsers[i]? = some e →
    ∃ factory, factories.lookup e.1 = some factory ∧ factory (position + i) = .ok e.2
  fails : ∀ dialect fault, failure = some (dialect, fault) →
    (∃ factory, factories.lookup dialect = some factory ∧
      factory (position + parsers.length) = .error fault) ∧
    parsers.map Prod.fst ++ [dialect] <+: dialects
  complete : failure = none → parsers.map Prod.fst = dialects

theorem called_given {factories : List (Dialect × Factory)} {dialects : List Dialect}
    (provided : ∀ dialect ∈ dialects, dialect ∈ factories.map Prod.fst) (position : Nat) :
    Called factories position dialects (given factories position dialects)
      (failed? factories position dialects) := by
  induction dialects generalizing position with
  | nil => exact ⟨by simp [given], by simp [failed?], fun _ => rfl⟩
  | cons dialect rest ih =>
    have hrest := ih (fun d hd => provided d (List.mem_cons_of_mem _ hd)) (position + 1)
    cases hfactory : factories.lookup dialect with
    | none =>
      obtain ⟨e, he, heq⟩ := List.mem_map.mp (provided dialect List.mem_cons_self)
      have hne := List.lookup_eq_none_iff.mp hfactory e he
      simp [heq] at hne
    | some factory =>
      cases hcall : factory position with
      | error fault =>
        simp only [given, failed?, hfactory, hcall]
        refine ⟨by simp, ?_, by simp⟩
        intro d f h
        cases h
        exact ⟨⟨factory, hfactory, hcall⟩, by simp⟩
      | ok parser =>
        simp only [given, failed?, hfactory, hcall]
        refine ⟨?_, ?_, ?_⟩
        · intro i e he
          cases i with
          | zero =>
            cases Option.some.inj he
            exact ⟨factory, hfactory, hcall⟩
          | succ i =>
            have hnext := hrest.gives i e he
            rwa [Nat.add_assoc, Nat.add_comm 1] at hnext
        · intro d f h
          obtain ⟨hfails, hprefix⟩ := hrest.fails d f h
          rw [Nat.add_assoc, Nat.add_comm 1] at hfails
          exact ⟨hfails, (List.prefix_append_right_inj [dialect]).mpr hprefix⟩
        · intro h
          rw [List.map_cons, hrest.complete h]

theorem calls_events (parsers : List (Dialect × Parser)) :
    (events parsers).calls = parsers.map fun e => .factory e.1 := by
  induction parsers with
  | nil => rfl
  | cons e rest ih =>
    rw [events, List.flatMap_cons, ← events, Trace.calls_append, ih]
    rfl

theorem visits_events (parsers : List (Dialect × Parser)) : (events parsers).visits = [] := by
  induction parsers with
  | nil => rfl
  | cons e rest ih =>
    rw [events, List.flatMap_cons, ← events, Trace.visits_append, ih]
    rfl

end Startup

open Startup

namespace Dispatcher

/-- What becomes of a start after a factory has failed. What was given before for each dialect is
closed, unless the failure was an interrupt. -/
structure Abandoned (parsers : List (Dialect × Parser)) (dialect : Dialect) (cause : Fault)
    (w : World) (ended : Except Fault Unit) (closes : List Attempt) (answer : Answer Parser) :
    Prop where
  result : answer.result = .error (raised cause ended)
  trace : answer.trace = events parsers ++ .called (.factory dialect) ::
    closes.flatMap fun a => a.within ++ noted a
  interrupted : cause.isInterrupt = true → ended = .ok () ∧ closes = []
  closed : cause.isInterrupt = false → ∃ registry final, Registry.Gathers parsers registry ∧
    Closed registry (w.extend (events parsers ++ [.called (.factory dialect)])) final ended closes

structure Started (dispatcher : Dispatcher) (parsers : List (Dialect × Parser))
    (answer : Answer Parser) : Prop where
  calls : answer.trace.calls = parsers.map fun e => .factory e.1
  visits : answer.trace.visits = []
  made : dispatcher.default ∈ parsers.map Prod.fst → ∃ registry,
    Registry.Gathers parsers registry ∧ answer.result = .ok (.dispatcher dispatcher registry)
  empty : parsers = [] → answer.result = .error (.registry .empty)
  unmapped : parsers ≠ [] → dispatcher.default ∉ parsers.map Prod.fst →
    answer.result = .error (.registry (.defaultUnmapped dispatcher.default
      (parsers.map Prod.fst).eraseDups))

structure Launched (dispatcher : Dispatcher) (enabled : List Dialect)
    (factories : List (Dialect × Factory)) (w : World) (answer : Answer Parser) : Prop where
  refused : ∀ dialect ∈ enabled, dialect ∉ factories.map Prod.fst →
    answer = ⟨.error (.settings (.factoriesMissing
      (enabled.filter fun d => !(factories.map Prod.fst).contains d) (factories.map Prod.fst))), []⟩
  called : (∀ dialect ∈ enabled, dialect ∈ factories.map Prod.fst) → ∃ parsers failure,
    Called factories 0 enabled parsers failure ∧
      (∀ dialect cause, failure = some (dialect, cause) →
        ∃ ended closes, Abandoned parsers dialect cause w ended closes answer) ∧
      (failure = none → Started dispatcher parsers answer)

def createdRecord (d : Dispatcher) (registry : List (Dialect × Parser)) : LogRecord :=
  let dialects := Dialect.listing (registry.map Prod.fst)
  ⟨.info, .dispatch, s!"Created hybrid parser for {dialects} (default: {d.default.name})"⟩

theorem outcome_create (d : Dispatcher) (entries : List (Key × Parser)) (w : World) :
    (d.create entries).outcome w =
      match Registry.ofEntries entries d.default with
      | .error fault => (.error (.registry fault), w)
      | .ok registry =>
        (.ok (.dispatcher d registry), w.extend [.logged (d.createdRecord registry)]) := by
  unfold create
  cases Registry.ofEntries entries d.default with
  | error fault => rfl
  | ok registry =>
    dsimp only
    rw [outcome_bind, World.outcome_log]
    rfl

variable {number : Nat} {name : String} {settings : Settings}
  {factories : List (Dialect × Factory)} {w : World}

theorem launch_abandoned
    (provided : ∀ dialect ∈ settings.enabled, dialect ∈ factories.map Prod.fst)
    {dialect : Dialect} {cause : Fault}
    (failed : failed? factories 0 settings.enabled = some (dialect, cause)) :
    ∃ ended closes, Abandoned (given factories 0 settings.enabled) dialect cause w ended closes
      (launch number name settings factories w) := by
  obtain ⟨ended, final, closes, houtcome, hclosed⟩ :=
    @outcome_start_abandoned number name settings factories w provided dialect cause failed
  set parsers := given factories 0 settings.enabled
  have htrace : final.trace = w.trace ++ (events parsers ++ .called (.factory dialect) ::
      closes.flatMap fun a => a.within ++ noted a) := by
    cases hcause : cause.isInterrupt with
    | true =>
      rw [if_pos hcause] at hclosed
      rw [hclosed.2.1, hclosed.2.2]
      rfl
    | false =>
      rw [hcause] at hclosed
      rw [hclosed.trace, World.extend_trace, List.append_assoc, List.append_assoc,
        List.singleton_append]
  refine ⟨ended, closes, ?_, ?_, ?_, ?_⟩
  · rw [launch, houtcome]
  · rw [launch, houtcome, World.since_eq htrace]
  · intro h
    rw [if_pos h] at hclosed
    exact ⟨hclosed.1, hclosed.2.2⟩
  · intro h
    rw [h] at hclosed
    exact ⟨_, final, Registry.gathers_gather _, hclosed⟩

theorem launch_started
    (provided : ∀ dialect ∈ settings.enabled, dialect ∈ factories.map Prod.fst)
    (started : failed? factories 0 settings.enabled = none) :
    Started ⟨number, name, settings.defaultDialect⟩ (given factories 0 settings.enabled)
      (launch number name settings factories w) := by
  have houtcome : (Dispatcher.start number name settings factories).outcome w = _ :=
    (outcome_start_given provided started).trans (outcome_create _ _ _)
  rw [Registry.ofEntries_dialects (Registry.gather_nodup _)] at houtcome
  generalize given factories 0 settings.enabled = parsers at houtcome ⊢
  have hempty : Registry.gather parsers = [] ↔ parsers = [] := by
    rw [← List.length_eq_zero_iff, Registry.length_gather, List.length_eq_zero_iff,
      List.dedup_eq_nil, List.map_eq_nil_iff]
  have hmem : settings.defaultDialect ∈ (Registry.gather parsers).map Prod.fst ↔
      settings.defaultDialect ∈ parsers.map Prod.fst := Registry.mem_gather_dialects
  simp only [hempty, hmem] at houtcome
  have htrace : ∃ records : List LogRecord, (launch number name settings factories w).trace =
      events parsers ++ records.map .logged := by
    unfold launch
    rw [houtcome]
    split_ifs
    · exact ⟨[], World.since_eq (by simp)⟩
    · exact ⟨[_], World.since_eq (by simp [List.append_assoc]; rfl)⟩
    · exact ⟨[], World.since_eq (by simp)⟩
  obtain ⟨records, htrace⟩ := htrace
  refine ⟨?_, ?_, ?_, ?_, ?_⟩
  · rw [htrace, Trace.calls_append, calls_events, Trace.calls_logged, List.append_nil]
  · rw [htrace, Trace.visits_append, visits_events, Trace.visits_logged, List.append_nil]
  · intro h
    have hne : parsers ≠ [] := by
      rintro rfl
      cases h
    refine ⟨_, Registry.gathers_gather parsers, ?_⟩
    rw [launch, houtcome, if_neg hne, if_pos h]
  · intro h
    rw [launch, houtcome, if_pos h]
  · intro hne h
    rw [launch, houtcome, if_neg hne, if_neg h, Registry.gather_dialects]

/-- Whatever the settings and the factories are. -/
theorem launch_launched (number : Nat) (name : String) (settings : Settings)
    (factories : List (Dialect × Factory)) (w : World) :
    Launched ⟨number, name, settings.defaultDialect⟩ settings.enabled factories w
      (launch number name settings factories w) := by
  refine ⟨?_, ?_⟩
  · intro dialect hdialect hmissing
    have hnot : ¬ ∀ d ∈ settings.enabled, d ∈ factories.map Prod.fst :=
      fun h => hmissing (h dialect hdialect)
    rw [launch, outcome_start_refused hnot, World.since_eq (List.append_nil _).symm]
  · intro provided
    refine ⟨_, _, called_given provided 0, ?_, ?_⟩
    · intro dialect cause failed
      exact launch_abandoned provided failed
    · exact launch_started provided

/-- Factories that start a new parser each time, until the fourth call fails. -/
def Sample.fourthFails : List (Dialect × Factory) :=
  let factory : Factory := fun position =>
    if position = 3 then .error (.failure .runtime none)
    else .ok (.delegate ⟨position, s!"parser {position}", "p", [], []⟩)
  [(.pythonDsl, factory), (.skylark, factory)]

/-- A dialect has been started twice when a factory fails. The later parser of the two is closed; it
fails to, and the other dialect is closed nonetheless. -/
theorem launch_launched_sample :
    let settings : Settings := ⟨.pythonDsl, [.pythonDsl, .skylark, .pythonDsl, .skylark]⟩
    let w := { World.fresh with
      script := fun _ number _ => if number = 2 then some (.failure .os none) else none }
    let answer := launch 5 "h" settings Sample.fourthFails w
    answer.result = .error (.failure .runtime none) ∧
      answer.trace.calls = [.factory .pythonDsl, .factory .skylark, .factory .pythonDsl,
        .factory .skylark, .lifecycle "parser 2" .close, .lifecycle "parser 1" .close] ∧
      answer.trace.log.map LogRecord.level = [.info, .info, .info, .warning] ∧
      Launched ⟨5, "h", .pythonDsl⟩ settings.enabled Sample.fourthFails w answer := by
  intro settings w answer
  exact ⟨rfl, rfl, rfl, launch_launched 5 "h" settings Sample.fourthFails w⟩

end Dispatcher
end BuildDialect
