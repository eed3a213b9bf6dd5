import BuildDialect.Proofs.Parser.Account

/-!
The leaves that an operation on a tree of parsers has to call. They are called from left to right
up to the first interrupt. What a close has called and not been interrupted in is not due again,
and what is due afterwards begins with the leaf that was interrupted.
-/
namespace BuildDialect

open Process

def Lifecycle.skips (operation : Lifecycle) (w : World) (number : Nat) (dialect : Dialect) : Bool :=
  match operation with
  | .close => (w.closed number).contains dialect
  | .reportProfile => false

theorem Lifecycle.skips_close {w : World} {number : Nat} {dialect : Dialect} :
    Lifecycle.close.skips w number dialect = true ↔ dialect ∈ w.closed number := by
  simp [skips]

theorem Lifecycle.skips_congr {operation : Lifecycle} {w w' : World} {n : Nat}
    (h : operation = .close → w'.closed n = w.closed n) :
    operation.skips w' n = operation.skips w n := by
  funext dialect
  cases operation with
  | close => simp only [skips, h rfl]
  | reportProfile => rfl

namespace Parser

mutual

/-- The leaves of a parser, from left to right, without those that are passed over. -/
def dueAt (skips : Nat → Dialect → Bool) (owner : Nat) (dialect : Dialect) : Parser → List Leaf
  | .delegate d => [⟨owner, dialect, d⟩]
  | .dispatcher d registry => dueOf skips d.number registry

def dueOf (skips : Nat → Dialect → Bool) (owner : Nat) : List (Dialect × Parser) → List Leaf
  | [] => []
  | (dialect, p) :: rest =>
    (if skips owner dialect then [] else p.dueAt skips owner dialect) ++ dueOf skips owner rest

end

theorem dueOf_eq_flatMap (skips : Nat → Dialect → Bool) (owner : Nat)
    (registry : List (Dialect × Parser)) :
    dueOf skips owner registry =
      registry.flatMap fun e => if skips owner e.1 then [] else e.2.dueAt skips owner e.1 := by
  induction registry with
  | nil => rfl
  | cons e rest ih => rw [dueOf, ih, List.flatMap_cons]

theorem dueAt_congr {skips skips' : Nat → Dialect → Bool} {p : Parser}
    (h : ∀ n ∈ p.numbers, skips' n = skips n) (owner : Nat) (dialect : Dialect) :
    p.dueAt skips' owner dialect = p.dueAt skips owner dialect := by
  induction p generalizing owner dialect with
  | delegate d => rfl
  | dispatcher d registry ih =>
    rw [dueAt, dueAt, dueOf_eq_flatMap, dueOf_eq_flatMap, h _ (number_mem_numbers d registry)]
    apply List.flatMap_congr
    intro e he
    rw [ih e he fun n hn => h n (numbers_subset he hn)]

/-- Where nothing is passed over, every leaf is due. -/
theorem dueAt_eq_leavesAt {skips : Nat → Dialect → Bool} {p : Parser}
    (h : ∀ n ∈ p.numbers, ∀ dialect, skips n dialect = false) (owner : Nat) (dialect : Dialect) :
    p.dueAt skips owner dialect = p.leavesAt owner dialect := by
  induction p generalizing owner dialect with
  | delegate d => rfl
  | dispatcher d registry ih =>
    rw [dueAt, leavesAt, dueOf_eq_flatMap, leavesOf_eq_flatMap]
    apply List.flatMap_congr
    intro e he
    rw [h _ (number_mem_numbers d registry), ih e he fun n hn => h n (numbers_subset he hn)]
    rfl

end Parser

/-- The progress of an operation: its calls cover the leaves that are due up to an interrupt, and
those that a close has not been interrupted in are left out of what is due next. -/
structure Progress (operation : Lifecycle) (due next : List Leaf) (calls : List LeafCall)
    (interrupt : Option Fault) : Prop where
  covers : calls.map LeafCall.leaf <+: due
  all : interrupt = none → calls.map LeafCall.leaf = due
  next : operation = .close → due = (calls.filter LeafCall.settled).map LeafCall.leaf ++ next

namespace Progress

variable {operation : Lifecycle} {due next more : List Leaf} {calls more' : List LeafCall}
  {interrupt : Option Fault}

/-- After an interrupt nothing more is called, and all of it stays due. -/
theorem stop {fault : Fault} (h : Progress operation due next calls (some fault)) :
    Progress operation (due ++ more) (next ++ more) calls (some fault) := by
  refine ⟨h.covers.trans (List.prefix_append _ _), (fun h => by cases h), fun hop => ?_⟩
  rw [h.next hop, List.append_assoc]

theorem append (h : Progress operation due [] calls none)
    (rest : Progress operation more next more' interrupt) :
    Progress operation (due ++ more) next (calls ++ more') interrupt := by
  refine ⟨?_, fun hi => ?_, fun hop => ?_⟩
  · rw [List.map_append, h.all rfl]
    exact List.prefix_append_right_inj due |>.mpr rest.covers
  · rw [List.map_append, h.all rfl, rest.all hi]
  · rw [List.filter_append, List.map_append, List.append_assoc, ← rest.next hop]
    congr 1
    rw [h.next hop, List.append_nil]

end Progress

def Errand.left (number : Nat) (operation : Lifecycle) (errand : Errand) (w : World) : List Leaf :=
  match interrupt? (errand.result w) with
  | none => []
  | some _ => errand.parser.dueAt (operation.skips (errand.done w)) number errand.dialect

theorem LeafCall.settled_iff {leaf : Leaf} {result : Except Fault Unit} :
    LeafCall.settled ⟨leaf, fault? result⟩ = true ↔ interrupt? result = none := by
  cases result with
  | ok value => exact ⟨fun _ => rfl, fun _ => rfl⟩
  | error fault =>
    simp [LeafCall.settled, LeafCall.ending, Ending.settled, fault?, interrupt?_error]

theorem Tally.settled {calls : List LeafCall} {unfold : Fault → List (Dialect × Fault)}
    {result : Except Fault Unit} (h : Tally (calls.map LeafCall.ending) (unfolded unfold result))
    (hr : interrupt? result = none) : ∀ c ∈ calls, c.settled := by
  have hok : ∃ failures, unfolded unfold result = .ok failures := by
    cases result with
    | ok value => exact ⟨[], rfl⟩
    | error fault =>
      rw [interrupt?_error] at hr
      split_ifs at hr with hf
      exact ⟨unfold fault, if_neg hf⟩
  obtain ⟨failures, hf⟩ := hok
  rw [hf] at h
  exact fun c hc => h.of_ok.1 _ (List.mem_map_of_mem hc)

theorem Delegate.progress (number : Nat) (operation : Lifecycle) (dialect : Dialect)
    (d : Delegate) (w : World) :
    let errand := Parser.errand operation (dialect, .delegate d)
    Progress operation ((Parser.delegate d).dueAt (operation.skips w) number dialect)
      (errand.left number operation w)
      ((errand.after number operation operation.remembers w).since w).leafCalls
      (interrupt? (errand.result w)) := by
  intro errand
  have hcalls : ((errand.after number operation operation.remembers w).since w).leafCalls = _ :=
    d.after_leafCalls number operation _ dialect w
  rw [hcalls]
  refine ⟨List.prefix_refl _, fun _ => rfl, fun _ => ?_⟩
  unfold Errand.left
  cases h : interrupt? (errand.result w) with
  | none =>
    have hs : LeafCall.settled ⟨⟨number, dialect, d⟩, fault? (errand.result w)⟩ = true := by
      rw [LeafCall.settled_iff]
      exact h
    rw [List.filter_cons_of_pos hs]
    rfl
  | some fault =>
    have hs : ¬ LeafCall.settled ⟨⟨number, dialect, d⟩, fault? (errand.result w)⟩ = true := by
      rw [LeafCall.settled_iff]
      show interrupt? (errand.result w) ≠ none
      rw [h]
      exact Option.some_ne_none fault
    rw [List.filter_cons_of_neg hs]
    rfl

theorem Process.interrupt?_map (f : List (Dialect × Fault) → List (Dialect × Fault))
    (result : Except Fault (List (Dialect × Fault))) :
    interrupt? (result.map f) = interrupt? result := by
  cases result <;> rfl

section

variable {number : Nat} {operation : Lifecycle} {e : Dialect × Parser} {w : World}

/-- A visit adds its own dialect to those that are passed over, and no other. -/
theorem Errand.after_skips (apart : operation = .close → number ∉ e.2.numbers) {dialect : Dialect}
    (hne : dialect ≠ e.1) :
    operation.skips ((Parser.errand operation e).after number operation operation.remembers w)
      number dialect = operation.skips w number dialect := by
  cases operation with
  | reportProfile => rfl
  | close =>
    rw [Bool.eq_iff_iff, Lifecycle.skips_close, Lifecycle.skips_close, Lifecycle.remembers,
      Errand.mem_after_closed, Parser.errand_closed .close (apart rfl)]
    exact ⟨fun h => h.resolve_right fun h' => hne h'.2, Or.inl⟩

/-- What is due at parsers that a visit is not about stays so. -/
theorem Errand.after_dueAt {p : Parser} {owner : Nat} {dialect : Dialect}
    (apart : operation = .close → ∀ n ∈ p.numbers, n ≠ number ∧ n ∉ e.2.numbers) :
    p.dueAt (operation.skips ((Parser.errand operation e).after number operation
      operation.remembers w)) owner dialect = p.dueAt (operation.skips w) owner dialect := by
  apply Parser.dueAt_congr
  intro n hn
  apply Lifecycle.skips_congr
  intro hop
  obtain ⟨hne, hnot⟩ := apart hop n hn
  rw [Errand.after_closed_of_ne hne, Parser.errand_closed operation hnot]

/-- After an interrupt, its own parser and those that come later stay due. -/
theorem Errand.after_interrupt {rest : List (Dialect × Parser)} {fault : Fault}
    (here : operation = .close → number ∉ e.2.numbers)
    (hopen : operation.skips w number e.1 = false)
    (h : interrupt? ((Parser.errand operation e).result w) = some fault) :
    Parser.dueOf (operation.skips ((Parser.errand operation e).after number operation
        operation.remembers w)) number (e :: rest) =
      (Parser.errand operation e).left number operation w ++
        Parser.dueOf (operation.skips ((Parser.errand operation e).after number operation
          operation.remembers w)) number rest := by
  have hskips : operation.skips ((Parser.errand operation e).after number operation
      operation.remembers w) = operation.skips ((Parser.errand operation e).done w) := by
    funext n
    exact Lifecycle.skips_congr fun _ => congrFun (Errand.after_closed_of_interrupt h) n
  have hstill : operation.skips ((Parser.errand operation e).done w) number e.1 = false := by
    rw [Lifecycle.skips_congr fun hop => Parser.errand_closed operation (here hop) w]
    exact hopen
  rw [hskips, Parser.dueOf, hstill, if_neg Bool.false_ne_true]
  unfold Errand.left
  rw [h]
  rfl

/-- Where all numbers are distinct, a dispatcher is not a part of the first entry, and what the
others are made of is neither. -/
theorem Parser.numbers_apart {rest : List (Dialect × Parser)}
    (h : (number :: (e :: rest).flatMap fun e => e.2.numbers).Nodup) :
    number ∉ e.2.numbers ∧ (∀ r ∈ rest, ∀ n ∈ r.2.numbers, n ≠ number ∧ n ∉ e.2.numbers) ∧
      (number :: rest.flatMap fun e => e.2.numbers).Nodup := by
  rw [List.flatMap_cons, List.nodup_cons, List.nodup_append] at h
  obtain ⟨hnumber, -, hrest, hapart⟩ := h
  refine ⟨fun hin => hnumber (List.mem_append_left _ hin), fun r hr n hn => ?_,
    List.nodup_cons.mpr ⟨fun hin => hnumber (List.mem_append_right _ hin), hrest⟩⟩
  have hin : n ∈ rest.flatMap fun e => e.2.numbers := List.mem_flatMap.mpr ⟨r, hr, hn⟩
  exact ⟨fun heq => hnumber (heq ▸ List.mem_append_right _ hin),
    fun hin' => hapart n hin' n hin rfl⟩

/-- What is due at the entries that come later stays so on a visit. -/
theorem Errand.after_dueOf {rest : List (Dialect × Parser)} (dialect : e.1 ∉ rest.map Prod.fst)
    (distinct : operation = .close →
      (number :: (e :: rest).flatMap fun e => e.2.numbers).Nodup) :
    Parser.dueOf (operation.skips ((Parser.errand operation e).after number operation
      operation.remembers w)) number rest = Parser.dueOf (operation.skips w) number rest := by
  rw [Parser.dueOf_eq_flatMap, Parser.dueOf_eq_flatMap]
  apply List.flatMap_congr
  intro r hr
  have hne : r.1 ≠ e.1 := fun heq => dialect (heq ▸ List.mem_map_of_mem hr)
  rw [Errand.after_skips (fun hop => (Parser.numbers_apart (distinct hop)).1) hne,
    Errand.after_dueAt fun hop => (Parser.numbers_apart (distinct hop)).2.1 r hr]

/-- A close passes over the entry of a visit that was settled, whatever is visited after it. -/
theorem Dispatcher.Round.skips_first {rest : List (Dialect × Parser)} {final : World}
    {result : Except Fault (List (Dialect × Fault))} (hop : operation = .close)
    (h : interrupt? ((Parser.errand operation e).result w) = none)
    (next : Dispatcher.Round number operation operation.remembers
      (rest.map (Parser.errand operation)) ((Parser.errand operation e).after number operation
        operation.remembers w) result final) :
    operation.skips final number e.1 = true := by
  have hkept := next.steps (Parser.closed_steps operation [number] number) List.mem_cons_self
    fun errand herrand w' => by
      obtain ⟨r, hr, rfl⟩ := List.mem_map.mp herrand
      exact r.2.closed_subset_perform operation w' number
  subst hop
  rw [Lifecycle.skips_close]
  exact hkept (Errand.mem_after_closed.mpr (Or.inr ⟨h, rfl⟩))

/-- The trace of a visit and of the rest of a round is that of the visit and that of the rest. -/
theorem Dispatcher.Round.since_first {rest : List (Dialect × Parser)} {final : World}
    {result : Except Fault (List (Dialect × Fault))}
    (next : Dispatcher.Round number operation operation.remembers
      (rest.map (Parser.errand operation)) ((Parser.errand operation e).after number operation
        operation.remembers w) result final) :
    final.since w = ((Parser.errand operation e).after number operation
        operation.remembers w).since w ++
      final.since ((Parser.errand operation e).after number operation operation.remembers w) := by
  have hfirst : w.trace <+:
      ((Parser.errand operation e).after number operation operation.remembers w).trace :=
    (Parser.errand_prefix operation e w).trans Errand.done_prefix_after
  apply World.since_trans hfirst
  refine next.steps (Parser.prefix_steps operation [number]) List.mem_cons_self ?_
  intro errand herrand w'
  obtain ⟨r, hr, rfl⟩ := List.mem_map.mp herrand
  exact Parser.errand_prefix operation r w'

end

/-- The progress of visits: the parsers that are passed over afterwards are due no more. -/
theorem Dispatcher.Round.progress {number : Nat} {operation : Lifecycle}
    {entries : List (Dialect × Parser)} {w final : World}
    {result : Except Fault (List (Dialect × Fault))}
    (dialects : (entries.map Prod.fst).Nodup)
    (distinct : operation = .close → (number :: entries.flatMap fun e => e.2.numbers).Nodup)
    (pending : ∀ e ∈ entries, operation.skips w number e.1 = false)
    (each : ∀ e ∈ entries, ∀ w,
      Progress operation (e.2.dueAt (operation.skips w) number e.1)
        ((Parser.errand operation e).left number operation w)
        (((Parser.errand operation e).after number operation
          operation.remembers w).since w).leafCalls
        (interrupt? ((Parser.errand operation e).result w)))
    (round : Dispatcher.Round number operation operation.remembers
      (Parser.performEach operation entries) w result final) :
    Progress operation (Parser.dueOf (operation.skips w) number entries)
      (Parser.dueOf (operation.skips final) number entries) (final.since w).leafCalls
      (interrupt? result) := by
  rw [Parser.performEach_eq_map] at round
  induction entries generalizing w result with
  | nil =>
    cases round
    rw [World.since_eq (List.append_nil _).symm]
    exact ⟨List.prefix_refl _, fun _ => rfl, fun _ => rfl⟩
  | cons e rest ih =>
    have hopen := pending e List.mem_cons_self
    rw [List.map_cons, List.nodup_cons] at dialects
    have hhere : operation = .close → number ∉ e.2.numbers :=
      fun hop => (Parser.numbers_apart (distinct hop)).1
    have hrest := Errand.after_dueOf (w := w) dialects.1 distinct
    have he := each e List.mem_cons_self w
    rw [Parser.dueOf, hopen, if_neg Bool.false_ne_true]
    cases round with
    | @interrupted _ _ _ fault h =>
      rw [h] at he
      rw [Errand.after_interrupt hhere hopen h, hrest, interrupt?_error,
        if_pos (interrupt?_eq_some.mp h).2]
      exact he.stop
    | @settled _ _ _ _ result h next =>
      rw [Errand.left, h] at he
      have hskip : ∀ r ∈ rest, operation.skips ((Parser.errand operation e).after number operation
          operation.remembers w) number r.1 = operation.skips w number r.1 := fun r hr =>
        Errand.after_skips hhere fun heq => dialects.1 (heq ▸ List.mem_map_of_mem hr)
      have hnext := ih dialects.2 (fun hop => (Parser.numbers_apart (distinct hop)).2.2)
        (fun r hr => (hskip r hr).trans (pending r (List.mem_cons_of_mem _ hr)))
        (fun r hr => each r (List.mem_cons_of_mem _ hr)) next
      rw [hrest] at hnext
      have hall := he.append hnext
      rw [next.since_first, Trace.leafCalls_append, interrupt?_map]
      refine ⟨hall.covers, hall.all, fun hop => ?_⟩
      rw [hall.next hop, Parser.dueOf, next.skips_first hop h]
      rfl

theorem Dispatcher.interrupt?_finish (operation : Lifecycle)
    (result : Except Fault (List (Dialect × Fault))) :
    interrupt? (finish operation result) = interrupt? result := by
  cases result with
  | error fault => rfl
  | ok failures => cases failures <;> rfl

theorem Dispatcher.pending_eq_filter (d : Dispatcher) (operation : Lifecycle)
    (registry : List (Dialect × Parser)) (w : World) :
    d.pending operation registry w =
      registry.filter fun e => !operation.skips w d.number e.1 := by
  cases operation with
  | close => rfl
  | reportProfile => exact (List.filter_eq_self.mpr fun _ _ => rfl).symm

/-- Nothing is due at the parsers that an operation passes over. -/
theorem Dispatcher.dueOf_pending {d : Dispatcher} {operation : Lifecycle}
    {registry : List (Dialect × Parser)} {w : World} {skips : Nat → Dialect → Bool}
    (h : ∀ dialect, operation.skips w d.number dialect = true → skips d.number dialect = true) :
    Parser.dueOf skips d.number (d.pending operation registry w) =
      Parser.dueOf skips d.number registry := by
  rw [pending_eq_filter]
  induction registry with
  | nil => rfl
  | cons e rest ih =>
    cases he : operation.skips w d.number e.1 with
    | true =>
      rw [List.filter_cons_of_neg (by simp [he]), ih, Parser.dueOf, if_pos (h e.1 he)]
      rfl
    | false => rw [List.filter_cons_of_pos (by simp [he]), Parser.dueOf, Parser.dueOf, ih]

theorem Lifecycle.skips_mono {operation : Lifecycle} {w w' : World} {number : Nat}
    (h : w.closed number ⊆ w'.closed number) (dialect : Dialect)
    (hs : operation.skips w number dialect = true) :
    operation.skips w' number dialect = true := by
  cases operation with
  | close =>
    rw [skips_close] at hs ⊢
    exact h hs
  | reportProfile => exact hs

theorem Dispatcher.Performed.progress {operation : Lifecycle} {d : Dispatcher}
    {registry : List (Dialect × Parser)} {w final : World} {result : Except Fault Unit}
    (dialects : (registry.map Prod.fst).Nodup)
    (distinct : operation = .close → (Parser.dispatcher d registry).numbers.Nodup)
    (kept : w.closed d.number ⊆ final.closed d.number)
    (each : ∀ e ∈ registry, ∀ w,
      Progress operation (e.2.dueAt (operation.skips w) d.number e.1)
        ((Parser.errand operation e).left d.number operation w)
        (((Parser.errand operation e).after d.number operation
          operation.remembers w).since w).leafCalls
        (interrupt? ((Parser.errand operation e).result w)))
    (performed : d.Performed operation registry w result final) :
    Progress operation (Parser.dueOf (operation.skips w) d.number registry)
      (Parser.dueOf (operation.skips final) d.number registry) (final.since w).leafCalls
      (interrupt? result) := by
  have hsub := d.pending_sublist operation registry w
  rw [← dueOf_pending (Lifecycle.skips_mono kept)]
  rw [← dueOf_pending fun _ hs => hs] at *
  cases performed with
  | idle hop h =>
    rw [h, World.since_eq rfl]
    exact ⟨List.prefix_refl _, fun _ => rfl, fun _ => rfl⟩
  | @round result final h =>
    rw [interrupt?_finish]
    refine h.progress (dialects.sublist (hsub.map _)) (fun hop => ?_) ?_ ?_
    · have hd := distinct hop
      rw [Parser.numbers_dispatcher] at hd
      exact hd.sublist ((hsub.flatMap _).cons_cons _)
    · intro e he
      rw [pending_eq_filter, List.mem_filter] at he
      simpa using he.2
    · exact fun e he => each e (hsub.subset he)

/-- What the operation comes to on a registered dispatcher, seen from the one that visits it. -/
theorem Progress.visit {operation : Lifecycle} {number : Nat} {e : Dialect × Parser} {w : World}
    {calls : List LeafCall} {unfold : Fault → List (Dialect × Fault)}
    (h : Progress operation (e.2.dueAt (operation.skips w) number e.1)
      (e.2.dueAt (operation.skips ((Parser.errand operation e).done w)) number e.1) calls
      (interrupt? ((Parser.errand operation e).result w)))
    (tally : Tally (calls.map LeafCall.ending)
      (unfolded unfold ((Parser.errand operation e).result w))) :
    Progress operation (e.2.dueAt (operation.skips w) number e.1)
      ((Parser.errand operation e).left number operation w) calls
      (interrupt? ((Parser.errand operation e).result w)) := by
  unfold Errand.left
  cases hr : interrupt? ((Parser.errand operation e).result w) with
  | some fault =>
    rw [hr] at h
    exact h
  | none =>
    rw [hr] at h
    refine ⟨h.covers, h.all, fun _ => ?_⟩
    rw [List.append_nil, List.filter_eq_self.mpr (tally.settled hr), h.all rfl]

theorem Parser.progress {p : Parser} {operation : Lifecycle} (built : p.Built)
    (distinct : operation = .close → p.numbers.Nodup) (number : Nat) (dialect : Dialect)
    (w : World) :
    let errand := Parser.errand operation (dialect, p)
    Progress operation (p.dueAt (operation.skips w) number dialect)
      (errand.left number operation w)
      ((errand.after number operation operation.remembers w).since w).leafCalls
      (interrupt? (errand.result w)) := by
  induction p generalizing number dialect w with
  | delegate d => exact d.progress number operation dialect w
  | dispatcher d registry ih =>
    intro errand
    have hprogress := (perform_performed operation d registry w).progress built.nodup distinct
      ((dispatcher d registry).closed_subset_perform operation w d.number)
      fun e he => ih e he (built.part he) (fun hop => numbers_nodup_part (distinct hop) he)
        d.number e.1
    have hcalls : ((errand.after number operation operation.remembers w).since w).leafCalls =
        ((errand.done w).since w).leafCalls := by
      rw [Errand.after_since_leafCalls ((dispatcher d registry).prefix_perform operation w)]
      exact List.append_nil _
    have htally := (account built operation number dialect w).tally
    rw [hcalls] at htally ⊢
    exact Progress.visit hprogress htally

/-- An operation on a dispatcher calls the leaves that are due, up to an interrupt. -/
theorem Parser.answer_progress {d : Dispatcher} {registry : List (Dialect × Parser)}
    {operation : Lifecycle} (built : (Parser.dispatcher d registry).Built)
    (distinct : operation = .close → (Parser.dispatcher d registry).numbers.Nodup) (w : World) :
    Progress operation (Parser.dueOf (operation.skips w) d.number registry)
      (Parser.dueOf (operation.skips
        (((Parser.dispatcher d registry).perform operation).outcome w).2) d.number registry)
      ((Parser.dispatcher d registry).answer operation w).trace.leafCalls
      (interrupt? ((Parser.dispatcher d registry).answer operation w).result) :=
  (perform_performed operation d registry w).progress built.nodup distinct
    ((dispatcher d registry).closed_subset_perform operation w d.number)
    fun e he => progress (built.part he) (fun hop => numbers_nodup_part (distinct hop) he)
      d.number e.1

end BuildDialect
