import BuildDialect.Proofs.Parser.Account

/-!
What a dispatcher records of its own visits. They go over its registry in order, and what it counts
as closed is what it has visited to close it without being interrupted.
-/
namespace BuildDialect

open Process

namespace Visit

def ending (v : Visit) : Ending := (v.dialect, v.fault)

def settled (v : Visit) : Bool := v.ending.settled

def entry (v : Visit) : Dialect × Parser := (v.dialect, v.parser)

end Visit

theorem Errand.visit_settled {operation : Lifecycle} {visitor : Visitor} {errand : Errand}
    {w : World} :
    (errand.visit visitor operation w).settled = true ↔ interrupt? (errand.result w) = none := by
  unfold Visit.settled Visit.ending Errand.visit
  cases errand.result w with
  | ok value => exact ⟨fun _ => rfl, fun _ => rfl⟩
  | error fault => simp [Ending.settled, fault?, interrupt?_error]

/-- The visits that a dispatcher makes to entries of its registry in an operation. -/
structure Dispatcher.Visited (number : Nat) (operation : Lifecycle)
    (entries : List (Dialect × Parser)) (w final : World)
    (result : Except Fault (List (Dialect × Fault))) (visits : List Visit) : Prop where
  trace : final.trace.visitsBy number = w.trace.visitsBy number ++ visits
  operations : ∀ v ∈ visits, v.operation = operation
  order : visits.map Visit.entry <+: entries
  settled : (visits.filter Visit.settled).map Visit.entry <+: entries
  closed : final.closed number = w.closed number ++
    if operation.remembers then (visits.filter Visit.settled).map Visit.dialect else []
  tally : Tally (visits.map Visit.ending) result

/-- How the visit of an entry ends adds to the failures. -/
theorem Tally.visit {errand : Errand} {visitor : Visitor} {operation : Lifecycle} {w : World}
    {endings : List Ending} {result : Except Fault (List (Dialect × Fault))}
    (h : interrupt? (errand.result w) = none) (rest : Tally endings result) :
    Tally ((errand.visit visitor operation w).ending :: endings)
      (result.map ((errand.failure? w).toList ++ ·)) := by
  unfold Visit.ending Errand.visit Errand.failure?
  cases hr : errand.result w with
  | ok value =>
    have hid : result.map ([] ++ ·) = result := by cases result <;> rfl
    show Tally ((errand.dialect, none) :: endings) (result.map ([] ++ ·))
    rw [hid]
    exact .returned rest
  | error fault =>
    rw [hr, interrupt?_error] at h
    exact .failed (by simpa using h) rest

section

variable {number : Nat} {operation : Lifecycle}

/-- A visit of its own that is settled is all that a dispatcher records on the visit. -/
theorem Errand.after_closed {errand : Errand} {w : World}
    (own : (errand.done w).closed number = w.closed number)
    (opened : operation = .close → errand.dialect ∉ w.closed number)
    (h : interrupt? (errand.result w) = none) :
    (errand.after number operation operation.remembers w).closed number = w.closed number ++
      if operation.remembers then [errand.dialect] else [] := by
  cases operation with
  | reportProfile =>
    rw [Lifecycle.remembers, Errand.after_closed_of_forget, own]
    exact (List.append_nil _).symm
  | close =>
    rw [Lifecycle.remembers, if_pos rfl, Errand.after_closed_of_settled h,
      World.mark_closed_self _ _ (own ▸ opened rfl), own]

/-- The dialects of entries that come later stay open after a visit. -/
theorem Errand.after_opened {e : Dialect × Parser} {rest : List (Dialect × Parser)} {w : World}
    (dialect : e.1 ∉ rest.map Prod.fst)
    (own : ((Parser.errand operation e).done w).closed number = w.closed number)
    (opened : operation = .close → ∀ r ∈ rest, r.1 ∉ w.closed number) :
    operation = .close → ∀ r ∈ rest, r.1 ∉ ((Parser.errand operation e).after
      number operation operation.remembers w).closed number := by
  rintro rfl r hr hin
  rw [Lifecycle.remembers, Errand.mem_after_closed, own] at hin
  rcases hin with hin | ⟨_, heq⟩
  · exact opened rfl r hr hin
  · have hsame : r.1 = e.1 := heq
    exact dialect (hsame ▸ List.mem_map_of_mem hr)

namespace Dispatcher.Visited

variable {e : Dialect × Parser} {rest : List (Dialect × Parser)} {w middle final : World}
  {v : Visit}

/-- A visit that is interrupted is the last one. -/
theorem interrupted {fault : Fault} (entry : v.entry = e) (hop : v.operation = operation)
    (hfault : v.fault = some fault) (hf : fault.isInterrupt)
    (trace : final.trace.visitsBy number = w.trace.visitsBy number ++ [v])
    (closed : final.closed number = w.closed number) :
    Dispatcher.Visited number operation (e :: rest) w final (.error fault) [v] := by
  have hs : ¬ v.settled := by
    rw [Visit.settled, Visit.ending, hfault, Ending.settled, Option.any_some, hf]
    exact Bool.false_ne_true
  have hnone : [v].filter Visit.settled = [] := by
    rw [List.filter_cons_of_neg hs, List.filter_nil]
  refine ⟨trace, List.forall_mem_singleton.mpr hop, ?_, ?_, ?_, ?_⟩
  · rw [List.map_singleton, entry]
    exact List.prefix_append [e] rest
  · rw [hnone]
    exact List.nil_prefix
  · rw [closed, hnone]
    split_ifs <;> exact (List.append_nil _).symm
  · rw [List.map_singleton, Visit.ending, hfault]
    exact .interrupted hf

/-- A visit that is settled comes before those to the rest of the entries. -/
theorem cons {visits : List Visit} {result all : Except Fault (List (Dialect × Fault))}
    (entry : v.entry = e) (hop : v.operation = operation) (hs : v.settled)
    (trace : middle.trace.visitsBy number = w.trace.visitsBy number ++ [v])
    (closed : middle.closed number = w.closed number ++
      if operation.remembers then [v.dialect] else [])
    (tally : Tally (visits.map Visit.ending) result → Tally ((v :: visits).map Visit.ending) all)
    (h : Dispatcher.Visited number operation rest middle final result visits) :
    Dispatcher.Visited number operation (e :: rest) w final all (v :: visits) := by
  refine ⟨?_, List.forall_mem_cons.mpr ⟨hop, h.operations⟩, ?_, ?_, ?_, tally h.tally⟩
  · rw [h.trace, trace, List.append_assoc]
    rfl
  · rw [List.map_cons, entry]
    exact (List.prefix_append_right_inj [e]).mpr h.order
  · rw [List.filter_cons_of_pos hs, List.map_cons, entry]
    exact (List.prefix_append_right_inj [e]).mpr h.settled
  · rw [h.closed, closed, List.append_assoc, List.filter_cons_of_pos hs]
    split_ifs <;> rfl

end Dispatcher.Visited

/-- The visits of a round go over the entries in order, up to an interrupt. -/
theorem Dispatcher.Round.visited {entries : List (Dialect × Parser)} {w final : World}
    {result : Except Fault (List (Dialect × Fault))} (dialects : (entries.map Prod.fst).Nodup)
    (opened : operation = .close → ∀ e ∈ entries, e.1 ∉ w.closed number)
    (each : ∀ e ∈ entries, ∀ w,
      ((Parser.errand operation e).done w).record number = w.record number)
    (round : Dispatcher.Round number operation operation.remembers
      (Parser.performEach operation entries) w result final) :
    ∃ visits, Dispatcher.Visited number operation entries w final result visits := by
  rw [Parser.performEach_eq_map] at round
  induction entries generalizing w result with
  | nil =>
    cases round
    refine ⟨[], (List.append_nil _).symm, fun v hv => absurd hv List.not_mem_nil,
      List.prefix_refl _, List.prefix_refl _, ?_, .nil⟩
    split_ifs <;> exact (List.append_nil _).symm
  | cons e rest ih =>
    have hown := each e List.mem_cons_self w
    have htrace := congrArg Prod.snd hown
    have hkept : ((Parser.errand operation e).done w).closed number = w.closed number :=
      congrArg Prod.fst hown
    have hafter : ((Parser.errand operation e).after number operation
        operation.remembers w).trace.visitsBy number = w.trace.visitsBy number ++
          [(Parser.errand operation e).visit (.dispatcher number) operation w] := by
      rw [Errand.after_visitsBy]
      exact congrArg (· ++ _) htrace
    cases round with
    | @interrupted _ _ _ fault h =>
      obtain ⟨hr, hf⟩ := interrupt?_eq_some.mp h
      have hfault : ((Parser.errand operation e).visit (.dispatcher number) operation w).fault =
          some fault := congrArg fault? hr
      have hclosed : ((Parser.errand operation e).after number operation
          operation.remembers w).closed number = w.closed number := by
        rw [Errand.after_closed_of_interrupt h, hkept]
      exact ⟨_, .interrupted rfl rfl hfault hf hafter hclosed⟩
    | @settled _ _ _ _ result h next =>
      rw [List.map_cons, List.nodup_cons] at dialects
      have hopened := Errand.after_opened dialects.1 hkept
        fun hop r hr => opened hop r (List.mem_cons_of_mem _ hr)
      have hclosed := Errand.after_closed hkept (fun hop => opened hop e List.mem_cons_self) h
      obtain ⟨visits, hv⟩ := ih dialects.2 hopened
        (fun r hr => each r (List.mem_cons_of_mem _ hr)) next
      exact ⟨_, hv.cons rfl rfl (Errand.visit_settled.mpr h) hafter hclosed (Tally.visit h)⟩

end

theorem Dispatcher.pending_open {d : Dispatcher} {registry : List (Dialect × Parser)} {w : World}
    {e : Dialect × Parser} (he : e ∈ d.pending .close registry w) :
    e.1 ∉ w.closed d.number := by
  rw [pending, List.mem_filter] at he
  simpa using he.2

/-- An operation on a dispatcher visits parsers that it does not pass over, and ends as the visits
do. -/
theorem Parser.perform_visited {d : Dispatcher} {registry : List (Dialect × Parser)}
    (built : (Parser.dispatcher d registry).Built) (operation : Lifecycle) (w : World) :
    ∃ visits result,
      ((Parser.dispatcher d registry).answer operation w).result =
        Dispatcher.finish operation result ∧
      Dispatcher.Visited d.number operation (d.pending operation registry w) w
        (((Parser.dispatcher d registry).perform operation).outcome w).2 result visits := by
  have performed := perform_performed operation d registry w
  unfold answer
  generalize (((dispatcher d registry).perform operation).outcome w).1 = result at performed ⊢
  generalize (((dispatcher d registry).perform operation).outcome w).2 = final at performed ⊢
  have hsub := d.pending_sublist operation registry w
  cases performed with
  | idle hop h =>
    refine ⟨[], .ok [], rfl, ?_, fun v hv => absurd hv List.not_mem_nil, List.nil_prefix,
      List.nil_prefix, ?_, .nil⟩
    · rw [World.extend_trace, Trace.visitsBy_append]
      rfl
    · subst hop
      exact (List.append_nil _).symm
  | @round result final h =>
    have opened : operation = .close → ∀ e ∈ d.pending operation registry w,
        e.1 ∉ w.closed d.number := by
      rintro rfl e he
      exact Dispatcher.pending_open he
    obtain ⟨visits, hv⟩ := h.visited (built.nodup.sublist (hsub.map _)) opened
      fun e he => e.2.perform_record operation (built.apart (hsub.subset he))
    exact ⟨visits, result, rfl, hv⟩

def closes (visits : List Visit) : List Visit := visits.filter fun v => v.operation = .close

theorem closes_append (a b : List Visit) : closes (a ++ b) = closes a ++ closes b :=
  List.filter_append ..

theorem closes_eq_self {visits : List Visit} (h : ∀ v ∈ visits, v.operation = .close) :
    closes visits = visits :=
  List.filter_eq_self.mpr fun v hv => decide_eq_true (h v hv)

theorem closes_eq_nil {visits : List Visit} (h : ∀ v ∈ visits, v.operation = .reportProfile) :
    closes visits = [] := by
  refine List.filter_eq_nil_iff.mpr fun v hv hc => ?_
  rw [decide_eq_true_eq, h v hv] at hc
  cases hc

/-- The record of a dispatcher is in order: it counts as closed what it has closed without being
interrupted, which is the start of its registry. -/
structure Recorded (registry : List (Dialect × Parser)) (record : List Dialect × List Visit) :
    Prop where
  closed : record.1 = ((closes record.2).filter Visit.settled).map Visit.dialect
  order : ((closes record.2).filter Visit.settled).map Visit.entry <+: registry
  entries : ∀ v ∈ closes record.2, v.entry ∈ registry

theorem Recorded.empty (registry : List (Dialect × Parser)) : Recorded registry ([], []) :=
  ⟨rfl, List.nil_prefix, fun _ h => absurd h List.not_mem_nil⟩

/-- Where the start of a registry is closed, the rest is to be closed. -/
theorem Dispatcher.pending_eq_rest {d : Dispatcher} {done rest : List (Dialect × Parser)}
    {w : World} (nodup : ((done ++ rest).map Prod.fst).Nodup)
    (h : w.closed d.number = done.map Prod.fst) :
    d.pending .close (done ++ rest) w = rest := by
  rw [List.map_append, List.nodup_append] at nodup
  have hdone : ∀ e ∈ done, ¬ (!(w.closed d.number).contains e.1) = true := by
    intro e he
    rw [h, List.contains_iff_mem.mpr (List.mem_map_of_mem he)]
    exact Bool.false_ne_true
  have hrest : ∀ e ∈ rest, (!(w.closed d.number).contains e.1) = true := by
    intro e he
    have hnot : e.1 ∉ w.closed d.number := fun hin =>
      nodup.2.2 e.1 (h ▸ hin) e.1 (List.mem_map_of_mem he) rfl
    simpa using hnot
  rw [pending, List.filter_append, List.filter_eq_nil_iff.mpr hdone, List.filter_eq_self.mpr hrest]
  rfl

/-- The visits of an operation keep the record in order. -/
theorem Dispatcher.Visited.recorded {d : Dispatcher} {operation : Lifecycle}
    {registry : List (Dialect × Parser)} {w final : World}
    {result : Except Fault (List (Dialect × Fault))} {visits : List Visit}
    (nodup : (registry.map Prod.fst).Nodup)
    (hv : Dispatcher.Visited d.number operation (d.pending operation registry w) w final result
      visits)
    (h : Recorded registry (w.record d.number)) : Recorded registry (final.record d.number) := by
  have hrecord : final.record d.number = (w.closed d.number ++
      if operation.remembers then (visits.filter Visit.settled).map Visit.dialect else [],
      w.trace.visitsBy d.number ++ visits) := Prod.ext hv.closed hv.trace
  obtain ⟨closed, order, entries⟩ := h
  rw [hrecord]
  cases operation with
  | reportProfile =>
    have hsame : closes (w.trace.visitsBy d.number ++ visits) =
        closes (w.trace.visitsBy d.number) := by
      rw [closes_append, closes_eq_nil hv.operations, List.append_nil]
    refine ⟨?_, hsame ▸ order, hsame ▸ entries⟩
    rw [hsame]
    exact (List.append_nil _).trans closed
  | close =>
    have hall := closes_eq_self hv.operations
    obtain ⟨rest, hsplit⟩ := order
    have hdone : w.closed d.number =
        (((closes (w.record d.number).2).filter Visit.settled).map Visit.entry).map Prod.fst := by
      rw [List.map_map]
      exact closed
    have hpending : d.pending .close registry w = rest := by
      rw [← hsplit] at nodup ⊢
      exact pending_eq_rest nodup hdone
    refine ⟨?_, ?_, ?_⟩
    · rw [closes_append, hall, List.filter_append, List.map_append]
      exact congrArg (· ++ _) closed
    · rw [closes_append, hall, List.filter_append, List.map_append, ← hsplit,
        ← hpending]
      exact (List.prefix_append_right_inj _).mpr hv.settled
    · rw [closes_append, hall]
      intro v hmem
      rcases List.mem_append.mp hmem with hmem | hmem
      · exact entries v hmem
      · exact (d.pending_sublist .close registry w).subset
          (hv.order.subset (List.mem_map_of_mem hmem))

/-- An operation on a parser keeps the record of a dispatcher in order, wherever it occurs. -/
theorem Parser.perform_recorded {p : Parser} (built : p.Built) (operation : Lifecycle)
    {d : Dispatcher} {registry : List (Dialect × Parser)}
    (same : ∀ node ∈ p.nodes, node.1.number = d.number → node = (d, registry)) {w : World}
    (h : Recorded registry (w.record d.number)) :
    Recorded registry ((((p.perform operation).outcome w).2).record d.number) := by
  induction p generalizing w with
  | delegate delegate =>
    rw [(Parser.delegate delegate).perform_record operation List.not_mem_nil]
    exact h
  | dispatcher d' registry' ih =>
    by_cases hnumber : d'.number = d.number
    · cases same (d', registry') List.mem_cons_self hnumber
      obtain ⟨visits, result, _, hv⟩ := perform_visited built operation w
      exact hv.recorded built.nodup h
    · have hout : d.number ∉ [d'.number] := fun hin => hnumber (List.mem_singleton.mp hin).symm
      refine dispatcher_steps (record_steps operation hout (Recorded registry))
        List.mem_cons_self (fun e he w' h' => ?_) w h
      exact ih e he (built.part he) (fun node hnode => same node (nodes_part he hnode)) h'

end BuildDialect
