import BuildDialect.Proofs.Parser.Record
import BuildDialect.Proofs.Parser.Startup
import BuildDialect.Session.Basic

/-!
The dispatchers that a session has made. A dispatcher is known by its number for good, also when no
name stands for it any more, and what it has recorded is in order.
-/
namespace BuildDialect

open Process

abbrev Node := Dispatcher × List (Dialect × Parser)

/-- A parser that is made of known dispatchers. -/
structure Parser.Among (known : List Node) (p : Parser) : Prop where
  built : p.Built
  nodes : p.nodes ⊆ known

/-- What known dispatchers have recorded is in order, and no other has recorded anything. -/
structure World.Sound (known : List Node) (w : World) : Prop where
  distinct : ∀ a ∈ known, ∀ b ∈ known, a.1.number = b.1.number → a = b
  recorded : ∀ a ∈ known, Recorded a.2 (w.record a.1.number)
  unused : ∀ n, (∀ a ∈ known, a.1.number ≠ n) → w.record n = ([], [])

/-- A session in which every parser is made of known dispatchers. -/
structure Session.Sound (known : List Node) (s : Session) : Prop where
  world : s.world.Sound known
  named : ∀ name p, s.parsers name = some p → p.Among known
  made : ∀ a ∈ known, a.1.number < s.made

namespace Parser

theorem Among.mono {known more : List Node} {p : Parser} (h : p.Among known)
    (hsub : known ⊆ more) : p.Among more :=
  ⟨h.built, fun _ hn => hsub (h.nodes hn)⟩

theorem Among.delegate (known : List Node) (d : Delegate) : (Parser.delegate d).Among known :=
  ⟨.delegate d, List.nil_subset known⟩

theorem Among.number {known : List Node} {p : Parser} (h : p.Among known) {n : Nat}
    (hn : n ∈ p.numbers) : ∃ a ∈ known, a.1.number = n := by
  obtain ⟨a, ha, rfl⟩ := List.mem_map.mp hn
  exact ⟨a, h.nodes ha, rfl⟩

end Parser

/-- A dispatcher of a number that is not in use, made of parsers that are. -/
theorem Parser.Among.dispatcher {known : List Node} {d : Dispatcher}
    {registry : List (Dialect × Parser)} {entries : List (Key × Parser)}
    (accepted : Registry.ofEntries entries d.default = .ok registry)
    (parts : ∀ e ∈ entries, e.2.Among known) (unknown : ∀ a ∈ known, a.1.number ≠ d.number) :
    (Parser.dispatcher d registry).Among ((d, registry) :: known) := by
  refine ⟨.dispatcher entries accepted (fun e he => (parts e he).built) fun e he hin => ?_, ?_⟩
  · obtain ⟨a, ha, hnumber⟩ := (parts e he).number hin
    exact unknown a ha hnumber
  · intro node hnode
    rw [Parser.nodes, nodesOf_eq_flatMap] at hnode
    rcases List.mem_cons.mp hnode with rfl | hnode
    · exact List.mem_cons_self
    · obtain ⟨e, he, hnode⟩ := List.mem_flatMap.mp hnode
      have hpart := (Registry.ofEntries_ok accepted).2.2 e he
      exact List.mem_cons_of_mem _ ((parts _ hpart).nodes hnode)

namespace World.Sound

variable {known : List Node} {w : World}

theorem recordsOnly (known : List Node) : RecordsOnly (World.Sound known) := by
  intro w w' h hw
  refine ⟨hw.distinct, fun a ha => ?_, fun n hn => ?_⟩
  · rw [h]
    exact hw.recorded a ha
  · rw [h]
    exact hw.unused n hn

/-- An operation on a parser of known dispatchers. -/
theorem keeps_perform {p : Parser} (h : p.Among known) (operation : Lifecycle) :
    Keeps (World.Sound known) (p.perform operation) fun _ => True := by
  refine fun w hw => ⟨⟨hw.distinct, fun a ha => ?_, fun n hn => ?_⟩, fun _ _ => True.intro⟩
  · exact Parser.perform_recorded h.built operation
      (fun node hnode hnumber => hw.distinct node (h.nodes hnode) a ha hnumber) (hw.recorded a ha)
  · have hout : n ∉ p.numbers := fun hin => by
      obtain ⟨a, ha, hnumber⟩ := h.number hin
      exact hn a ha hnumber
    rw [p.perform_record operation hout]
    exact hw.unused n hn

/-- A dispatcher of a number that is not in use has recorded nothing. -/
theorem cons (hw : w.Sound known) {node : Node}
    (unknown : ∀ a ∈ known, a.1.number ≠ node.1.number) : w.Sound (node :: known) := by
  refine ⟨?_, ?_, fun n hn => hw.unused n fun a ha => hn a (List.mem_cons_of_mem _ ha)⟩
  · intro a ha b hb hnumber
    rcases List.mem_cons.mp ha with hnode | ha <;> rcases List.mem_cons.mp hb with hnode' | hb
    · exact hnode.trans hnode'.symm
    · exact absurd (hnode ▸ hnumber.symm) (unknown b hb)
    · exact absurd (hnode' ▸ hnumber) (unknown a ha)
    · exact hw.distinct a ha b hb hnumber
  · intro a ha
    rcases List.mem_cons.mp ha with rfl | ha
    · rw [hw.unused _ unknown]
      exact .empty _
    · exact hw.recorded a ha

end World.Sound

namespace Session.Sound

variable {known : List Node} {s : Session}

/-- Where nothing has happened, no dispatcher is known. -/
theorem fresh : Session.fresh.Sound [] :=
  ⟨⟨fun _ h => absurd h List.not_mem_nil, fun _ h => absurd h List.not_mem_nil, fun _ _ => rfl⟩,
    fun _ _ h => (Option.some_ne_none _ h.symm).elim, fun _ h => absurd h List.not_mem_nil⟩

theorem keep (h : s.Sound known) (name : String) {p : Parser} (hp : p.Among known) :
    { s with parsers := s.parsers.assign name p }.Sound known := by
  refine ⟨h.world, fun other q hq => ?_, h.made⟩
  by_cases hname : other = name
  · subst hname
    rw [show ({ s with parsers := s.parsers.assign other p } : Session).parsers other = some p
      from s.parsers.assign_self other p] at hq
    exact Option.some.inj hq ▸ hp
  · exact h.named other q ((s.parsers.assign_of_ne p hname).symm.trans hq)

theorem cons (h : s.Sound known) {node : Node} (unknown : ∀ a ∈ known, a.1.number ≠ node.1.number)
    (made : node.1.number < s.made) : s.Sound (node :: known) :=
  ⟨h.world.cons unknown, fun name p hp => (h.named name p hp).mono (List.subset_cons_self _ _),
    List.forall_mem_cons.mpr ⟨made, h.made⟩⟩

theorem act (h : s.Sound known) {w : World} (hw : w.Sound known) :
    { s with world := w }.Sound known :=
  ⟨hw, h.named, h.made⟩

end Session.Sound
end BuildDialect
