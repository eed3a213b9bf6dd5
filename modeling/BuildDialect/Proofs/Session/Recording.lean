import BuildDialect.Proofs.Session.Closings
import BuildDialect.Proofs.Session.Safety

/-!
What a dispatcher records in the course of a session. It counts as closed the start of its registry,
and closes none of it twice, however often it is interrupted and whatever else is done.
-/
namespace BuildDialect

open Process

/-- The closes of parsers by a dispatcher that have ended other than by an interrupt. -/
def Dispatcher.settledCloses (d : Dispatcher) (s : Session) : List Visit :=
  (closes (s.world.trace.visitsBy d.number)).filter Visit.settled

/-- What is so of a dispatcher whenever a session gets on after it was made. -/
structure Dispatcher.Kept (d : Dispatcher) (registry : List (Dialect × Parser)) (s : Session) :
    Prop where
  dialects : (registry.map Prod.fst).Nodup
  default : d.default ∈ registry.map Prod.fst
  unchanged : ∀ name p, s.parsers name = some p → ∀ node ∈ p.nodes, node.1.number = d.number →
    node = (d, registry)
  /-- What is counted as closed is the start of the registry, and was closed in that order. -/
  start : ∃ done rest, registry = done ++ rest ∧
    s.world.closed d.number = done.map Prod.fst ∧ (d.settledCloses s).map Visit.entry = done
  once : ∀ e ∈ registry, e.1 ∈ s.world.closed d.number ↔
    ((d.settledCloses s).map Visit.entry).countP (fun c => c.1 = e.1) = 1
  never : ∀ e ∈ registry, e.1 ∉ s.world.closed d.number ↔
    ((d.settledCloses s).map Visit.entry).countP (fun c => c.1 = e.1) = 0
  entries : ∀ v ∈ closes (s.world.trace.visitsBy d.number), v.entry ∈ registry
  /-- No more is counted as closed after a command that does not close the dispatcher. -/
  unclosed : ∀ command : Command, (∀ p ∈ command.closings s, d.number ∉ p.numbers) →
    (s.perform command).2.world.closed d.number = s.world.closed d.number

theorem Recorded.kept {d : Dispatcher} {registry : List (Dialect × Parser)} {s : Session}
    (built : (Parser.dispatcher d registry).Built)
    (h : Recorded registry (s.world.record d.number))
    (unchanged : ∀ name p, s.parsers name = some p → ∀ node ∈ p.nodes,
      node.1.number = d.number → node = (d, registry)) : d.Kept registry s := by
  obtain ⟨closed, order, entries⟩ := h
  obtain ⟨rest, hrest⟩ := order
  have hclosed : s.world.closed d.number =
      ((d.settledCloses s).map Visit.entry).map Prod.fst := by
    rw [List.map_map]
    exact closed
  have hnodup : (((d.settledCloses s).map Visit.entry).map Prod.fst).Nodup := by
    have hsub : ((d.settledCloses s).map Visit.entry).Sublist registry :=
      hrest ▸ List.sublist_append_left _ rest
    exact built.nodup.sublist (hsub.map Prod.fst)
  refine ⟨built.nodup, built.default_mem, unchanged, ⟨_, rest, hrest.symm, hclosed, rfl⟩, ?_, ?_,
    entries, fun command hout => command.run_closed hout⟩
  · intro e _
    rw [hclosed]
    exact (Registry.countP_dialect hnodup e.1).1
  · intro e _
    rw [hclosed]
    exact (Registry.countP_dialect hnodup e.1).2

namespace Session.Leads

variable {s t u : Session}

theorem trans (h : s.Leads t) (h' : t.Leads u) : s.Leads u := by
  induction h' with
  | refl t => exact h
  | perform before command ih => exact .perform (ih h) command
  | rescript before script ih => exact .rescript (ih h) script
  | leave before entered inside ih _ => exact .leave (ih h) entered inside

theorem run (s : Session) (commands : List Command) : s.Leads (s.run commands).2 := by
  induction commands generalizing s with
  | nil => exact .refl s
  | cons command rest ih => exact (Leads.perform (.refl s) command).trans (ih _)

end Session.Leads
end BuildDialect
