import BuildDialect.Proofs.Parser.Attempts
import BuildDialect.Proofs.Parser.Due
import BuildDialect.Proofs.Session.Counting
import BuildDialect.Proofs.Session.Recording

/-!
Blocks over a dispatcher. However its body ends, a block closes the dispatcher once when it is left.
If that close is not interrupted, the dispatcher has closed each of its parsers once by then,
whatever was closed or interrupted before.
-/
namespace BuildDialect

open Process

/-- The dispatchers in a dispatcher of a parser are among those of the parser. -/
theorem Parser.nodes_node {p : Parser} {node : Dispatcher × List (Dialect × Parser)}
    (h : node ∈ p.nodes) : (Parser.dispatcher node.1 node.2).nodes ⊆ p.nodes := by
  induction p with
  | delegate d => exact absurd h List.not_mem_nil
  | dispatcher d registry ih =>
    rw [nodes, nodesOf_eq_flatMap] at h
    rcases List.mem_cons.mp h with rfl | h
    · exact List.Subset.refl _
    · obtain ⟨e, he, h⟩ := List.mem_flatMap.mp h
      exact List.Subset.trans (ih e he h) (nodes_part he)

/-- A close that is not interrupted leaves no parser of the registry open. -/
theorem Dispatcher.close_covers {d : Dispatcher} {registry : List (Dialect × Parser)} {w : World}
    (apart : ∀ e ∈ registry, d.number ∉ e.2.numbers)
    (h : interrupt? (((Parser.dispatcher d registry).perform .close).outcome w).1 = none) :
    ∀ e ∈ registry,
      e.1 ∈ (((Parser.dispatcher d registry).perform .close).outcome w).2.closed d.number := by
  intro e he
  by_cases hclosed : e.1 ∈ w.closed d.number
  · exact (Parser.dispatcher d registry).closed_subset_perform .close w d.number hclosed
  have hpending : e ∈ d.pending .close registry w := by
    rw [pending, List.mem_filter]
    simpa using ⟨he, hclosed⟩
  have performed := Parser.perform_performed .close d registry w
  revert h performed
  generalize (((Parser.dispatcher d registry).perform .close).outcome w).1 = result
  generalize (((Parser.dispatcher d registry).perform .close).outcome w).2 = final
  intro h performed
  cases performed with
  | idle hop hnone =>
    rw [hnone] at hpending
    cases hpending
  | @round visited final hround =>
    have hapart : ∀ errand ∈ Parser.performEach .close (d.pending .close registry w),
        errand.Apart d.number := by
      intro errand herrand
      obtain ⟨r, hr, rfl⟩ := mem_of_mem_pending herrand
      exact Parser.errand_isApart (apart r hr)
    obtain ⟨calls, hcalls⟩ := hround.attempts hapart
    rw [interrupt?_finish] at h
    cases visited with
    | error fault =>
      rw [interrupt?_error, if_pos hcalls.of_error.1] at h
      cases h
    | ok failures =>
      obtain ⟨hsettled, -⟩ := hcalls.of_ok
      have herrand : Parser.errand .close e ∈ calls.map Attempt.errand := by
        rw [hcalls.all hsettled, Parser.performEach_eq_map]
        exact List.mem_map_of_mem hpending
      obtain ⟨a, ha, haction⟩ := List.mem_map.mp herrand
      rw [hcalls.closed]
      exact Or.inr ⟨rfl, a, ha, hsettled a ha, congrArg Errand.dialect haction⟩

/-- Where all of a registry is closed, its entries are what was closed, in their order. -/
theorem Recorded.closes_all {registry : List (Dialect × Parser)}
    {record : List Dialect × List Visit} (nodup : (registry.map Prod.fst).Nodup)
    (h : Recorded registry record) (all : ∀ e ∈ registry, e.1 ∈ record.1) :
    ((closes record.2).filter Visit.settled).map Visit.entry = registry := by
  obtain ⟨rest, hrest⟩ := h.order
  cases rest with
  | nil => rwa [List.append_nil] at hrest
  | cons e rest =>
    -- an entry that is left would be a second one of its dialect
    have hmem : e ∈ registry := by
      rw [← hrest]
      exact List.mem_append_right _ List.mem_cons_self
    have hclosed :
        e.1 ∈ (((closes record.2).filter Visit.settled).map Visit.entry).map Prod.fst := by
      rw [List.map_map]
      exact h.closed ▸ all e hmem
    rw [← hrest, List.map_append, List.nodup_append] at nodup
    exact absurd rfl (nodup.2.2 e.1 hclosed e.1 List.mem_cons_self)

/-- Leaving a block: its parser is closed, and a fault of that close comes before the one that ended
the body. -/
def Session.exit (s : Session) (p : Parser) (ended : Option Fault) : Option Fault × Session :=
  (Parser.leave ended ((p.perform .close).outcome s.world).1, s.close p)

/-- How a block over a dispatcher is left whose body has led to a session, and has ended with a
fault or without. -/
structure Dispatcher.Left (d : Dispatcher) (registry : List (Dialect × Parser)) (inside : Session)
    (ended : Option Fault) (left : Option Fault × Session) : Prop where
  /-- The dispatcher is closed once, after the body. -/
  once : left.2 = inside.close (.dispatcher d registry)
  raised : ∀ fault,
    (((Parser.dispatcher d registry).perform .close).outcome inside.world).1 = .error fault →
      left.1 = some fault
  passed : (((Parser.dispatcher d registry).perform .close).outcome inside.world).1 = .ok () →
    left.1 = ended
  /-- If that close is not interrupted, the closes that the dispatcher has ever made and that were
  not interrupted are one for each entry of its registry. -/
  settled : interrupt?
      (((Parser.dispatcher d registry).perform .close).outcome inside.world).1 = none →
    (d.settledCloses left.2).map Visit.entry = registry ∧
      ∀ e ∈ registry, ((d.settledCloses left.2).map Visit.entry).countP (fun c => c.1 = e.1) = 1

namespace Command

end Command

namespace Session.Leads

variable {s t : Session} {name : String} {p : Parser} {d : Dispatcher}
  {registry : List (Dialect × Parser)}

theorem left {u : Session} (start : Session.fresh.Leads s) (held : s.parsers name = some p)
    (node : (d, registry) ∈ p.nodes) (inside : s.Leads u) (ended : Option Fault) :
    d.Left registry u ended (u.exit (.dispatcher d registry) ended) := by
  obtain ⟨known, -, hs⟩ := start.sound .fresh
  have hp := hs.named name p held
  obtain ⟨more, hmore, hu⟩ := inside.sound hs
  have hbuilt : (Parser.dispatcher d registry).Built := hp.built.node node
  have hknown : ∀ n ∈ (Parser.dispatcher d registry).nodes, n ∈ more :=
    fun n hn => hmore (hp.nodes (Parser.nodes_node node hn))
  have hself : (d, registry) ∈ more := hmore (hp.nodes node)
  have hrecorded : Recorded registry ((u.close (.dispatcher d registry)).world.record d.number) :=
    Parser.perform_recorded hbuilt .close
      (fun n hn hnumber => hu.world.distinct n (hknown n hn) (d, registry) hself hnumber)
      (hu.world.recorded (d, registry) hself)
  refine ⟨rfl, fun fault hfault => ?_, fun hreturned => ?_, fun hsettled => ?_⟩
  · rw [exit, hfault]
    rfl
  · rw [exit, hreturned]
    rfl
  · have hcovers := Dispatcher.close_covers (fun e he => hbuilt.apart he) hsettled
    have hentries : (d.settledCloses (u.close (.dispatcher d registry))).map Visit.entry =
        registry := hrecorded.closes_all hbuilt.nodup hcovers
    refine ⟨hentries, fun e he => ?_⟩
    rw [exit, hentries]
    exact (Registry.countP_dialect hbuilt.nodup e.1).1.mp (List.mem_map_of_mem he)

end Session.Leads
end BuildDialect
