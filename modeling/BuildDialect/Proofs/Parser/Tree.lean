import BuildDialect.Parser.Lifecycle
import BuildDialect.Parser.Registry
import Mathlib.Data.List.Nodup

/-!
Parsers as trees: a node is a dispatcher with its registry, a leaf a place where a delegate is
registered. A dispatcher is built of parsers that are there before it, so its registry has each
dialect once and its default, and it is not among its own parts.
-/
namespace BuildDialect

/-- A place at which a delegate is registered. The dispatcher is known by its number. -/
structure Leaf where
  owner : Nat
  dialect : Dialect
  delegate : Delegate
  deriving DecidableEq, Repr

namespace Registry

variable {α : Type}

theorem assign_dialects (registry : List (Dialect × α)) (dialect : Dialect) (entry : α) :
    (assign registry dialect entry).map Prod.fst =
      if dialect ∈ registry.map Prod.fst then registry.map Prod.fst
      else registry.map Prod.fst ++ [dialect] := by
  have hany : (registry.any fun e => e.1 == dialect) = true ↔ dialect ∈ registry.map Prod.fst := by
    simp only [List.any_eq_true, beq_iff_eq, List.mem_map]
  have hfst : ∀ e : Dialect × α, (if e.1 = dialect then (dialect, entry) else e).1 = e.1 := by
    intro e
    split_ifs with h
    · exact h.symm
    · rfl
  unfold assign
  by_cases h : dialect ∈ registry.map Prod.fst
  · rw [if_pos (hany.mpr h), if_pos h, List.map_map]
    exact List.map_congr_left fun e _ => hfst e
  · rw [if_neg (fun ha => h (hany.mp ha)), if_neg h, List.map_append]
    rfl

theorem mem_assign {registry : List (Dialect × α)} {dialect : Dialect} {entry : α}
    {e : Dialect × α} (he : e ∈ assign registry dialect entry) :
    e ∈ registry ∨ e = (dialect, entry) := by
  unfold assign at he
  split_ifs at he
  · obtain ⟨e', he', rfl⟩ := List.mem_map.mp he
    split_ifs
    · exact Or.inr rfl
    · exact Or.inl he'
  · simpa using he

theorem lookup_of_mem {registry : List (Dialect × α)} (h : (registry.map Prod.fst).Nodup)
    {e : Dialect × α} (he : e ∈ registry) : registry.lookup e.1 = some e.2 := by
  induction registry with
  | nil => cases he
  | cons first rest ih =>
    rw [List.map_cons, List.nodup_cons] at h
    rcases List.mem_cons.mp he with rfl | he
    · exact List.lookup_cons_self
    · have hne : (e.1 == first.1) = false := by
        rw [beq_eq_false_iff_ne]
        intro heq
        exact h.1 (heq ▸ List.mem_map_of_mem he)
      rw [List.lookup_cons, hne]
      exact ih h.2 he

theorem mem_of_lookup {registry : List (Dialect × α)} {dialect : Dialect} {entry : α}
    (h : registry.lookup dialect = some entry) : (dialect, entry) ∈ registry := by
  obtain ⟨front, back, rfl, _⟩ := List.lookup_eq_some_iff.mp h
  exact List.mem_append_right _ List.mem_cons_self

/-- Among entries with different dialects there is one of a dialect if and only if exactly one
is. -/
theorem countP_dialect {entries : List (Dialect × α)} (nodup : (entries.map Prod.fst).Nodup)
    (dialect : Dialect) :
    (dialect ∈ entries.map Prod.fst ↔ entries.countP (fun e => e.1 = dialect) = 1) ∧
      (dialect ∉ entries.map Prod.fst ↔ entries.countP (fun e => e.1 = dialect) = 0) := by
  have hcount : entries.countP (fun e => e.1 = dialect) = (entries.map Prod.fst).count dialect := by
    rw [List.count, List.countP_map]
    rfl
  have hle := List.nodup_iff_count_le_one.mp nodup dialect
  rw [hcount, List.count_eq_zero, ← List.count_pos_iff]
  exact ⟨by omega, by omega⟩

/-- A property of registries that every entry keeps holds of what is gathered. -/
private theorem foldl_assign_induction {motive : List (Dialect × α) → Prop}
    (entries : List (Dialect × α))
    (step : ∀ registry, ∀ e ∈ entries, motive registry → motive (assign registry e.1 e.2))
    {registry : List (Dialect × α)} (start : motive registry) :
    motive (entries.foldl (fun registry e => assign registry e.1 e.2) registry) := by
  induction entries generalizing registry with
  | nil => exact start
  | cons e rest ih =>
    have he := step registry e List.mem_cons_self start
    exact ih (fun registry e' he' => step registry e' (List.mem_cons_of_mem e he')) he

theorem gather_nodup (entries : List (Dialect × α)) :
    ((gather entries).map Prod.fst).Nodup := by
  refine foldl_assign_induction (motive := fun r => (r.map Prod.fst).Nodup) entries ?_
    List.nodup_nil
  intro registry e _ hr
  rw [assign_dialects]
  split_ifs with h
  · exact hr
  · exact List.nodup_append.mpr ⟨hr, List.nodup_singleton _, fun a ha b hb hab => by
      rw [List.mem_singleton] at hb
      exact h (hb ▸ hab ▸ ha)⟩

theorem mem_of_mem_gather {entries : List (Dialect × α)} {e : Dialect × α}
    (he : e ∈ gather entries) : e ∈ entries := by
  have hall : ∀ e ∈ gather entries, e ∈ entries := by
    refine foldl_assign_induction (motive := fun r => ∀ e ∈ r, e ∈ entries) entries ?_ (by simp)
    intro registry e' he' hr e he
    rcases mem_assign he with he | rfl
    · exact hr e he
    · exact he'
  exact hall e he

/-- A registry that is accepted has each dialect once, its default, and only what was offered. -/
theorem ofEntries_ok {entries : List (Key × α)} {default : Dialect}
    {registry : List (Dialect × α)} (h : ofEntries entries default = .ok registry) :
    (registry.map Prod.fst).Nodup ∧ default ∈ registry.map Prod.fst ∧
      ∀ e ∈ registry, (Key.dialect e.1, e.2) ∈ entries := by
  unfold ofEntries at h
  split_ifs at h
  split at h
  · cases h
  · dsimp only at h
    split_ifs at h with hd
    cases h
    refine ⟨gather_nodup _, by simpa using hd, ?_⟩
    intro e he
    obtain ⟨⟨key, p⟩, hk, hp⟩ := List.mem_filterMap.mp (mem_of_mem_gather he)
    cases key with
    | dialect dialect =>
      cases Option.some.inj hp
      exact hk
    | foreign key => cases hp

end Registry

namespace Parser

@[induction_eliminator]
theorem induction {motive : Parser → Prop} (delegate : ∀ d, motive (.delegate d))
    (dispatcher : ∀ d registry, (∀ e ∈ registry, motive e.2) → motive (.dispatcher d registry))
    (p : Parser) : motive p :=
  @Parser.rec motive (fun registry => ∀ e ∈ registry, motive e.2) (fun e => motive e.2)
    delegate dispatcher (fun _ h => absurd h List.not_mem_nil)
    (fun _ _ he hrest => List.forall_mem_cons.mpr ⟨he, hrest⟩) (fun _ _ h => h) p

mutual

/-- The dispatchers in a parser with their registries, the outermost first. -/
def nodes : Parser → List (Dispatcher × List (Dialect × Parser))
  | .delegate _ => []
  | .dispatcher d registry => (d, registry) :: nodesOf registry

def nodesOf : List (Dialect × Parser) → List (Dispatcher × List (Dialect × Parser))
  | [] => []
  | (_, p) :: rest => p.nodes ++ nodesOf rest

end

def numbers (p : Parser) : List Nat := p.nodes.map fun n => n.1.number

mutual

/-- The leaves of a parser that its owner has registered for a dialect, from left to right. -/
def leavesAt (owner : Nat) (dialect : Dialect) : Parser → List Leaf
  | .delegate d => [⟨owner, dialect, d⟩]
  | .dispatcher d registry => leavesOf d.number registry

def leavesOf (owner : Nat) : List (Dialect × Parser) → List Leaf
  | [] => []
  | (dialect, p) :: rest => p.leavesAt owner dialect ++ leavesOf owner rest

end

/-- The leaves of a parser. A delegate alone is registered nowhere. -/
def leaves : Parser → List Leaf
  | .delegate _ => []
  | .dispatcher d registry => leavesOf d.number registry

theorem nodesOf_eq_flatMap (registry : List (Dialect × Parser)) :
    nodesOf registry = registry.flatMap fun e => e.2.nodes := by
  induction registry with
  | nil => rfl
  | cons e rest ih => rw [nodesOf, ih, List.flatMap_cons]

theorem leavesOf_eq_flatMap (owner : Nat) (registry : List (Dialect × Parser)) :
    leavesOf owner registry = registry.flatMap fun e => e.2.leavesAt owner e.1 := by
  induction registry with
  | nil => rfl
  | cons e rest ih => rw [leavesOf, ih, List.flatMap_cons]

theorem nodes_part {d : Dispatcher} {registry : List (Dialect × Parser)} {e : Dialect × Parser}
    (he : e ∈ registry) : e.2.nodes ⊆ (dispatcher d registry).nodes := by
  intro node hnode
  rw [nodes, nodesOf_eq_flatMap]
  exact List.mem_cons_of_mem _ (List.mem_flatMap.mpr ⟨e, he, hnode⟩)

def errand (operation : Lifecycle) (e : Dialect × Parser) : Errand :=
  ⟨e.1, e.2, e.2.perform operation⟩

theorem performEach_eq_map (operation : Lifecycle) (registry : List (Dialect × Parser)) :
    performEach operation registry = registry.map (errand operation) := by
  induction registry with
  | nil => rfl
  | cons e rest ih => rw [performEach, ih, List.map_cons, errand]

theorem numbers_dispatcher (d : Dispatcher) (registry : List (Dialect × Parser)) :
    (dispatcher d registry).numbers = d.number :: registry.flatMap fun e => e.2.numbers := by
  unfold numbers
  rw [nodes, nodesOf_eq_flatMap, List.map_cons, List.map_flatMap]

theorem number_mem_numbers (d : Dispatcher) (registry : List (Dialect × Parser)) :
    d.number ∈ (dispatcher d registry).numbers := by
  rw [numbers_dispatcher]
  exact List.mem_cons_self

theorem numbers_subset {d : Dispatcher} {registry : List (Dialect × Parser)}
    {e : Dialect × Parser} (he : e ∈ registry) : e.2.numbers ⊆ (dispatcher d registry).numbers := by
  intro n hn
  rw [numbers_dispatcher]
  exact List.mem_cons_of_mem _ (List.mem_flatMap.mpr ⟨e, he, hn⟩)

theorem numbers_nodup_part {d : Dispatcher} {registry : List (Dialect × Parser)}
    (h : (dispatcher d registry).numbers.Nodup) {e : Dialect × Parser} (he : e ∈ registry) :
    e.2.numbers.Nodup := by
  rw [numbers_dispatcher, List.nodup_cons] at h
  exact (List.nodup_flatMap.mp h.2).1 e he

/-- A parser as it can be made: a dispatcher has a registry that was accepted, of parsers in which
its own number does not occur. -/
inductive Built : Parser → Prop
  | delegate (d : Delegate) : Built (.delegate d)
  | dispatcher {d : Dispatcher} {registry : List (Dialect × Parser)}
      (entries : List (Key × Parser))
      (accepted : Registry.ofEntries entries d.default = .ok registry)
      (parts : ∀ e ∈ entries, Built e.2) (apart : ∀ e ∈ entries, d.number ∉ e.2.numbers) :
      Built (.dispatcher d registry)

namespace Built

variable {d : Dispatcher} {registry : List (Dialect × Parser)}

theorem nodup (h : Built (.dispatcher d registry)) : (registry.map Prod.fst).Nodup := by
  cases h with
  | dispatcher entries accepted parts apart => exact (Registry.ofEntries_ok accepted).1

theorem default_mem (h : Built (.dispatcher d registry)) : d.default ∈ registry.map Prod.fst := by
  cases h with
  | dispatcher entries accepted parts apart => exact (Registry.ofEntries_ok accepted).2.1

theorem part (h : Built (.dispatcher d registry)) {e : Dialect × Parser} (he : e ∈ registry) :
    e.2.Built := by
  cases h with
  | dispatcher entries accepted parts apart =>
    exact parts _ ((Registry.ofEntries_ok accepted).2.2 e he)

theorem apart (h : Built (.dispatcher d registry)) {e : Dialect × Parser} (he : e ∈ registry) :
    d.number ∉ e.2.numbers := by
  cases h with
  | dispatcher entries accepted parts apart =>
    exact apart _ ((Registry.ofEntries_ok accepted).2.2 e he)

/-- The dispatchers in a parser that was made were made too. -/
theorem node {p : Parser} (built : p.Built) {node : Dispatcher × List (Dialect × Parser)}
    (h : node ∈ p.nodes) : (Parser.dispatcher node.1 node.2).Built := by
  induction p with
  | delegate d => exact absurd h List.not_mem_nil
  | dispatcher d registry ih =>
    rw [nodes, nodesOf_eq_flatMap] at h
    rcases List.mem_cons.mp h with rfl | h
    · exact built
    · obtain ⟨e, he, h⟩ := List.mem_flatMap.mp h
      exact ih e he (built.part he) h

end Built

namespace Sample

def inner : Dispatcher := ⟨2, "inner", .skylark⟩

def innerParts : List (Dialect × Parser) :=
  [(.skylark, .delegate ⟨0, "a", "a", [], []⟩), (.pythonDsl, .delegate ⟨1, "b", "b", [], []⟩)]

/-- A dispatcher whose first parser is a dispatcher too. -/
def outer : Dispatcher := ⟨4, "outer", .skylark⟩

def parts : List (Dialect × Parser) :=
  [(.pythonDsl, .dispatcher inner innerParts), (.skylark, .delegate ⟨3, "c", "c", [], []⟩)]

theorem inner_built : (Parser.dispatcher inner innerParts).Built := by
  refine .dispatcher (innerParts.map fun e => (.dialect e.1, e.2)) rfl ?_ ?_
  · rintro e (_ | ⟨_, _ | ⟨_, he⟩⟩)
    · exact .delegate _
    · exact .delegate _
    · cases he
  · rintro e (_ | ⟨_, _ | ⟨_, he⟩⟩)
    · exact List.not_mem_nil
    · exact List.not_mem_nil
    · cases he

theorem built : (Parser.dispatcher outer parts).Built := by
  refine .dispatcher (parts.map fun e => (.dialect e.1, e.2)) rfl ?_ ?_
  · rintro e (_ | ⟨_, _ | ⟨_, he⟩⟩)
    · exact inner_built
    · exact .delegate _
    · cases he
  · rintro e (_ | ⟨_, _ | ⟨_, he⟩⟩)
    · decide
    · exact List.not_mem_nil
    · cases he

theorem numbers_nodup : (Parser.dispatcher outer parts).numbers.Nodup := by
  decide

end Sample
end Parser
end BuildDialect
