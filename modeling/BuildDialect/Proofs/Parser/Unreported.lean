import BuildDialect.Proofs.Parser.Record
import BuildDialect.Proofs.Parser.Resumption
import Mathlib.Data.List.Pairwise

/-!
Failures that are never reported. A close that is interrupted ends with the interrupt alone; the
parsers that had failed before it count as closed, so no later close visits them again.
-/
namespace BuildDialect

open Process

def Answer.failures (a : Answer Unit) : List (Dialect × Fault) :=
  match a.result with
  | .error (.lifecycle _ failures true) => failures
  | _ => []

def Answer.settled (number : Nat) (a : Answer Unit) : List Dialect :=
  ((a.trace.visitsBy number).filter Visit.settled).map Visit.dialect

/-- Every ordinary fault that ended a visit of a dispatcher is listed in one of the answers. -/
def NothingLost (number : Nat) (answers : List (Answer Unit)) : Prop :=
  ∀ a ∈ answers, ∀ v ∈ a.trace.visitsBy number, ∀ fault, v.fault = some fault →
    fault.isInterrupt = false → ∃ a' ∈ answers, (v.dialect, fault) ∈ a'.failures

theorem Visit.settled_of_failure {v : Visit} {fault : Fault} (h : v.fault = some fault)
    (hf : fault.isInterrupt = false) : v.settled := by
  rw [Visit.settled, Visit.ending, h, Ending.settled, Option.any_some, hf]
  rfl

theorem Answer.mem_settled {number : Nat} {a : Answer Unit} {v : Visit}
    (hv : v ∈ a.trace.visitsBy number) (hs : v.settled) : v.dialect ∈ a.settled number :=
  List.mem_map_of_mem (List.mem_filter.mpr ⟨hv, hs⟩)

/-- A failure is listed if and only if there is a visit that it ended. -/
theorem Visit.mem_filterMap_failure? {visits : List Visit} {dialect : Dialect} {fault : Fault} :
    (dialect, fault) ∈ (visits.map Visit.ending).filterMap Ending.failure? ↔
      ∃ v ∈ visits, v.dialect = dialect ∧ v.fault = some fault := by
  simp only [List.filterMap_map, List.mem_filterMap, Function.comp_apply, Ending.failure?,
    Visit.ending, Option.map_eq_some_iff, Prod.mk.injEq]
  constructor
  · rintro ⟨v, hv, fault', hf, hd, rfl⟩
    exact ⟨v, hv, hd, hf⟩
  · rintro ⟨v, hv, hd, hf⟩
    exact ⟨v, hv, fault, hf, hd, rfl⟩

theorem Answer.failures_error {a : Answer Unit} {fault : Fault} (h : a.result = .error fault)
    (hf : fault.isInterrupt) : a.failures = [] := by
  unfold failures
  rw [h]
  cases fault with
  | interrupt kind text => rfl
  | _ => cases hf

section

variable {d : Dispatcher} {registry : List (Dialect × Parser)}
  (built : (Parser.dispatcher d registry).Built)

include built

/-- What an operation visits is what happens in it. -/
theorem Parser.answer_visited (operation : Lifecycle) (w : World) :
    ∃ result,
      ((Parser.dispatcher d registry).answer operation w).result =
        Dispatcher.finish operation result ∧
      Dispatcher.Visited d.number operation (d.pending operation registry w) w
        (((Parser.dispatcher d registry).perform operation).outcome w).2 result
        (((Parser.dispatcher d registry).answer operation w).trace.visitsBy d.number) := by
  obtain ⟨visits, result, hresult, hv⟩ := perform_visited built operation w
  refine ⟨result, hresult, ?_⟩
  have hsince := World.trace_eq_append_since
    ((Parser.dispatcher d registry).prefix_perform operation w)
  have htrace := hv.trace
  rw [hsince, Trace.visitsBy_append, List.append_cancel_left_eq] at htrace
  rw [answer, htrace]
  exact hv

/-- A close lists the failures of its visits, unless it is interrupted. -/
theorem Parser.mem_failures (w : World) {dialect : Dialect} {fault : Fault} :
    (dialect, fault) ∈ ((Parser.dispatcher d registry).answer .close w).failures ↔
      interrupt? ((Parser.dispatcher d registry).answer .close w).result = none ∧
      ∃ v ∈ ((Parser.dispatcher d registry).answer .close w).trace.visitsBy d.number,
        v.dialect = dialect ∧ v.fault = some fault := by
  obtain ⟨result, hresult, hv⟩ := answer_visited built .close w
  rw [hresult, Dispatcher.interrupt?_finish]
  cases result with
  | error fault' =>
    have hf := hv.tally.of_error.1
    have hnone := Answer.failures_error hresult hf
    rw [hnone, interrupt?_error, if_pos hf]
    exact ⟨fun h => absurd h List.not_mem_nil, fun h => by cases h.1⟩
  | ok failures =>
    have hlisted : ((Parser.dispatcher d registry).answer .close w).failures = failures := by
      unfold Answer.failures
      rw [hresult]
      cases failures <;> rfl
    rw [hlisted, ← hv.tally.of_ok.2, Visit.mem_filterMap_failure?]
    exact ⟨fun h => ⟨rfl, h⟩, fun h => h.2⟩

/-- Over a run of closes, no dialect is settled twice, and none that was closed before. -/
theorem Parser.closings_settled (scripts : List Script) (w : World) :
    (((Parser.dispatcher d registry).closings w scripts).1.flatMap
      (Answer.settled d.number)).Nodup ∧
    ∀ dialect ∈ ((Parser.dispatcher d registry).closings w scripts).1.flatMap
      (Answer.settled d.number), dialect ∉ w.closed d.number := by
  induction scripts generalizing w with
  | nil => exact ⟨List.nodup_nil, fun dialect h => absurd h List.not_mem_nil⟩
  | cons script rest ih =>
    obtain ⟨result, _, hv⟩ := answer_visited built .close (w.rescript script)
    obtain ⟨hnodup, hopen⟩ := ih (((dispatcher d registry).perform .close).outcome
      (w.rescript script)).2
    have hclosed := hv.closed
    rw [Lifecycle.remembers, if_pos rfl] at hclosed
    rw [closings]
    dsimp only
    rw [List.flatMap_cons]
    have hstart : (((dispatcher d registry).answer .close (w.rescript script)).settled
        d.number) <+: (d.pending .close registry (w.rescript script)).map Prod.fst := by
      have hmap := hv.settled.map Prod.fst
      rw [List.map_map] at hmap
      exact hmap
    have hpending : ∀ dialect ∈ (d.pending .close registry (w.rescript script)).map Prod.fst,
        dialect ∉ w.closed d.number := by
      intro dialect hd
      obtain ⟨e, he, rfl⟩ := List.mem_map.mp hd
      exact Dispatcher.pending_open he
    rw [hclosed] at hopen
    refine ⟨List.nodup_append.mpr ⟨?_, hnodup, ?_⟩, fun dialect hd => ?_⟩
    · exact (built.nodup.sublist ((d.pending_sublist .close registry _).map _)).sublist
        hstart.sublist
    · rintro dialect hd _ hd' rfl
      exact hopen dialect hd' (List.mem_append_right _ hd)
    · rcases List.mem_append.mp hd with hd | hd
      · exact hpending dialect (hstart.subset hd)
      · exact fun hin => hopen dialect hd (List.mem_append_left _ hin)

/-- A failure is listed if and only if the close in which it came was not interrupted. -/
theorem Parser.closings_listed {scripts : List Script} {w : World} {a : Answer Unit}
    (ha : a ∈ ((Parser.dispatcher d registry).closings w scripts).1) {v : Visit}
    (hv : v ∈ a.trace.visitsBy d.number) {fault : Fault} (hfault : v.fault = some fault)
    (hf : fault.isInterrupt = false) :
    (∃ a' ∈ ((Parser.dispatcher d registry).closings w scripts).1,
      (v.dialect, fault) ∈ a'.failures) ↔ interrupt? a.result = none := by
  constructor
  · rintro ⟨a', ha', hlisted⟩
    obtain ⟨w', rfl⟩ := mem_closings scripts ha'
    obtain ⟨hnone, v', hv', hdialect, hfault'⟩ := (mem_failures built w').mp hlisted
    -- the dialect is settled in both closes, so they are the same
    by_contra hinterrupt
    have hne : a ≠ (dispatcher d registry).answer .close w' := by
      rintro rfl
      exact hinterrupt hnone
    have hsymm : Std.Symm (Function.onFun List.Disjoint (Answer.settled d.number)) :=
      ⟨fun _ _ h _ hx hx' => h hx' hx⟩
    have hdisjoint := (List.nodup_flatMap.mp (closings_settled built scripts w).1).2.forall
      ha ha' hne
    refine hdisjoint (Answer.mem_settled hv (Visit.settled_of_failure hfault hf)) ?_
    rw [← hdialect]
    exact Answer.mem_settled hv' (Visit.settled_of_failure hfault' hf)
  · intro hnone
    obtain ⟨w', rfl⟩ := mem_closings scripts ha
    exact ⟨_, ha, (mem_failures built w').mpr ⟨hnone, v, hv, rfl, hfault⟩⟩

/-- Nothing is lost in a run of closes if and only if no close has a failure before an
interrupt. -/
theorem Parser.nothingLost_iff (w : World) (scripts : List Script) :
    NothingLost d.number ((Parser.dispatcher d registry).closings w scripts).1 ↔
      ∀ a ∈ ((Parser.dispatcher d registry).closings w scripts).1, (interrupt? a.result).isSome →
        ∀ v ∈ a.trace.visitsBy d.number, ∀ fault, v.fault = some fault → fault.isInterrupt := by
  constructor
  · intro h a ha hinterrupt v hv fault hfault
    by_contra hf
    rw [Bool.not_eq_true] at hf
    have hnone := (closings_listed built ha hv hfault hf).mp (h a ha v hv fault hfault hf)
    rw [hnone] at hinterrupt
    cases hinterrupt
  · intro h a ha v hv fault hfault hf
    apply (closings_listed built ha hv hfault hf).mpr
    by_contra hinterrupt
    have hi := h a ha (Option.isSome_iff_ne_none.mpr hinterrupt) v hv fault hfault
    rw [hf] at hi
    cases hi

end

theorem Parser.nothingLost_iff_sample :
    let interrupted : Script := fun _ _ _ => some (.interrupt .keyboard none)
    let failing : Script := fun _ _ _ => some (.failure .os none)
    let answers := ((dispatcher Sample.inner Sample.innerParts).closings World.fresh
      [interrupted, failing]).1
    (dispatcher Sample.inner Sample.innerParts).Built ∧
      NothingLost Sample.inner.number answers := by
  refine ⟨Sample.inner_built, (nothingLost_iff Sample.inner_built _ _).mpr ?_⟩
  intro a ha hinterrupt v hv fault hfault
  rcases List.mem_cons.mp ha with rfl | ha
  · cases List.mem_singleton.mp hv
    cases hfault
    rfl
  · cases List.mem_singleton.mp ha
    cases hinterrupt

/-- In one close a delegate fails and the next one is interrupted; in another both return. -/
def Parser.Sample.interruptedScripts : List Script :=
  [fun _ n _ => if n = 0 then some (.failure .os none) else some (.interrupt .keyboard none),
    fun _ _ _ => none]

/-- A failure can be lost although in the end every parser is closed. -/
theorem Parser.failure_lost :
    ¬ ∀ (d : Dispatcher) (registry : List (Dialect × Parser)) (scripts : List Script),
      (dispatcher d registry).Built →
      (∀ e ∈ registry,
        e.1 ∈ ((dispatcher d registry).closings World.fresh scripts).2.closed d.number) →
      NothingLost d.number ((dispatcher d registry).closings World.fresh scripts).1 := by
  intro h
  have hclosed : ((dispatcher Sample.inner Sample.innerParts).closings World.fresh
      Sample.interruptedScripts).2.closed 2 = Sample.innerParts.map Prod.fst := rfl
  have hlost := h Sample.inner Sample.innerParts Sample.interruptedScripts Sample.inner_built
    (fun e he => by
      show e.1 ∈ (((dispatcher Sample.inner Sample.innerParts).closings World.fresh
        Sample.interruptedScripts).2.closed 2)
      rw [hclosed]
      exact List.mem_map_of_mem he)
  obtain ⟨a, ha, hlisted⟩ := hlost _ List.mem_cons_self
    ⟨.dispatcher 2, .close, .skylark, .delegate ⟨0, "a", "a", [], []⟩, some (.failure .os none)⟩
    List.mem_cons_self _ rfl rfl
  have hnone : ((dispatcher Sample.inner Sample.innerParts).closings World.fresh
      Sample.interruptedScripts).1.flatMap Answer.failures = [] := rfl
  have hin := List.mem_flatMap.mpr ⟨a, ha, hlisted⟩
  rw [hnone] at hin
  cases hin

end BuildDialect
