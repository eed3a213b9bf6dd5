import BuildDialect.Proofs.Parser.Round

/-!
What an operation on a parser leaves alone. The trace is only added to, a parser that is closed
stays so, and nothing becomes of dispatchers outside the parser.
-/
namespace BuildDialect

open Process

theorem Delegate.outcome_perform (d : Delegate) (operation : Lifecycle) (w : World) :
    ((d.perform operation).outcome w).2 = w.extend [.called (.lifecycle d.name operation)] := by
  unfold Delegate.perform
  simp only [outcome_bind, Action.outcome_emit, outcome_get]
  split <;> rfl

theorem Parser.mem_performEach {operation : Lifecycle} {registry : List (Dialect × Parser)}
    {errand : Errand} (h : errand ∈ Parser.performEach operation registry) :
    ∃ e ∈ registry, errand = Parser.errand operation e := by
  rw [Parser.performEach_eq_map] at h
  obtain ⟨e, he, rfl⟩ := List.mem_map.mp h
  exact ⟨e, he, rfl⟩

theorem Dispatcher.pending_sublist (d : Dispatcher) (operation : Lifecycle)
    (registry : List (Dialect × Parser)) (w : World) :
    (d.pending operation registry w).Sublist registry := by
  cases operation with
  | reportProfile => exact List.Sublist.refl _
  | close => exact List.filter_sublist

theorem Dispatcher.mem_of_mem_pending {d : Dispatcher} {operation : Lifecycle}
    {registry : List (Dialect × Parser)} {w : World} {errand : Errand}
    (h : errand ∈ Parser.performEach operation (d.pending operation registry w)) :
    ∃ e ∈ registry, errand = Parser.errand operation e := by
  obtain ⟨e, he, rfl⟩ := Parser.mem_performEach h
  exact ⟨e, (d.pending_sublist operation registry w).subset he, rfl⟩

/-- Steps between worlds that are kept by whatever an operation on a parser does. -/
structure Parser.Steps (operation : Lifecycle) (numbers : List Nat) (R : World → World → Prop) :
    Prop where
  refl : ∀ w, R w w
  trans : ∀ {a b c}, R a b → R b c → R a c
  called : ∀ w name, R w (w.extend [.called (.lifecycle name operation)])
  logged : ∀ w record, record.source = .dispatch → R w (w.extend [.logged record])
  visited : ∀ number ∈ numbers, ∀ (errand : Errand) (w : World),
    R (errand.done w) (errand.after number operation operation.remembers w)

theorem Parser.Steps.mono {operation : Lifecycle} {numbers fewer : List Nat}
    {R : World → World → Prop} (steps : Parser.Steps operation numbers R)
    (h : fewer ⊆ numbers) : Parser.Steps operation fewer R :=
  { steps with visited := fun number hn => steps.visited number (h hn) }

theorem Dispatcher.Round.steps {number : Nat} {operation : Lifecycle} {errands : List Errand}
    {w final : World} {result : Except Fault (List (Dialect × Fault))} {numbers : List Nat}
    {R : World → World → Prop} (steps : Parser.Steps operation numbers R)
    (hn : number ∈ numbers) (each : ∀ errand ∈ errands, ∀ w, R w (errand.done w))
    (round : Dispatcher.Round number operation operation.remembers errands w result final) :
    R w final := by
  induction round with
  | done w => exact steps.refl w
  | interrupted h =>
    exact steps.trans (each _ List.mem_cons_self _) (steps.visited number hn _ _)
  | settled h next ih =>
    have hrest := ih fun errand he => each errand (List.mem_cons_of_mem _ he)
    exact steps.trans (each _ List.mem_cons_self _)
      (steps.trans (steps.visited number hn _ _) hrest)

/-- What the errands to the parts of a dispatcher keep is kept by an operation on it. -/
theorem Parser.dispatcher_steps {operation : Lifecycle} {numbers : List Nat}
    {R : World → World → Prop} {d : Dispatcher} {registry : List (Dialect × Parser)}
    (steps : Parser.Steps operation numbers R) (hn : d.number ∈ numbers)
    (each : ∀ e ∈ registry, ∀ w, R w ((errand operation e).done w)) (w : World) :
    R w (((dispatcher d registry).perform operation).outcome w).2 := by
  have hall : ∀ errand ∈ performEach operation (d.pending operation registry w), ∀ w,
      R w (errand.done w) := by
    intro errand herrand
    obtain ⟨e, he, rfl⟩ := Dispatcher.mem_of_mem_pending herrand
    exact each e he
  have performed := perform_performed operation d registry w
  revert performed
  generalize (((dispatcher d registry).perform operation).outcome w).1 = result
  generalize (((dispatcher d registry).perform operation).outcome w).2 = final
  intro performed
  cases performed with
  | idle hop h => exact steps.logged w _ rfl
  | round h => exact h.steps steps hn hall

theorem Parser.perform_steps {operation : Lifecycle} {R : World → World → Prop} (p : Parser)
    (steps : Parser.Steps operation p.numbers R) (w : World) :
    R w ((p.perform operation).outcome w).2 := by
  induction p generalizing w with
  | delegate d =>
    rw [Parser.perform, Delegate.outcome_perform]
    exact steps.called w d.name
  | dispatcher d registry ih =>
    exact dispatcher_steps steps (number_mem_numbers d registry)
      (fun e he => ih e he (steps.mono (numbers_subset he))) w

theorem Parser.prefix_steps (operation : Lifecycle) (numbers : List Nat) :
    Parser.Steps operation numbers fun a b => a.trace <+: b.trace where
  refl := fun _ => List.prefix_refl _
  trans := List.IsPrefix.trans
  called := fun _ _ => List.prefix_append _ _
  logged := fun _ _ _ => List.prefix_append _ _
  visited := fun _ _ errand _ => errand.done_prefix_after

theorem Parser.prefix_perform (p : Parser) (operation : Lifecycle) (w : World) :
    w.trace <+: ((p.perform operation).outcome w).2.trace :=
  p.perform_steps (prefix_steps operation p.numbers) w

theorem Dispatcher.Round.isInterrupt {number : Nat} {operation : Lifecycle} {remember : Bool}
    {errands : List Errand} {w final : World} {fault : Fault}
    (round : Dispatcher.Round number operation remember errands w (.error fault) final) :
    fault.isInterrupt := by
  generalize hr : Except.error fault = result at round
  induction round with
  | done w => cases hr
  | interrupted h =>
    cases hr
    exact (interrupt?_eq_some.mp h).2
  | @settled errand rest w final result h next ih =>
    cases result with
    | ok failures => cases hr
    | error fault' => exact ih hr

theorem Parser.closed_steps (operation : Lifecycle) (numbers : List Nat) (n : Nat) :
    Parser.Steps operation numbers fun a b => a.closed n ⊆ b.closed n where
  refl := fun _ => List.Subset.refl _
  trans := List.Subset.trans
  called := fun _ _ => List.Subset.refl _
  logged := fun _ _ _ => List.Subset.refl _
  visited := fun _ _ errand _ => errand.closed_subset_after n

theorem Parser.closed_subset_perform (p : Parser) (operation : Lifecycle) (w : World) (n : Nat) :
    w.closed n ⊆ ((p.perform operation).outcome w).2.closed n :=
  p.perform_steps (closed_steps operation p.numbers n) w

/-- Whatever other dispatchers do, the record of a dispatcher keeps its properties. -/
theorem Parser.record_steps (operation : Lifecycle) {numbers : List Nat} {n : Nat}
    (h : n ∉ numbers) (P : List Dialect × List Visit → Prop) :
    Parser.Steps operation numbers fun a b => P (a.record n) → P (b.record n) where
  refl := fun _ => id
  trans := fun hab hbc ha => hbc (hab ha)
  called := fun w _ hw => by
    rw [w.extend_record n rfl]
    exact hw
  logged := fun w _ _ hw => by
    rw [w.extend_record n rfl]
    exact hw
  visited := fun number hn errand w hw => by
    have hne : n ≠ number := fun heq => h (heq ▸ hn)
    rw [errand.after_record_of_ne hne]
    exact hw

/-- An operation on a parser adds nothing to the records of dispatchers that are not in it. -/
theorem Parser.perform_record (p : Parser) (operation : Lifecycle) {n : Nat} (h : n ∉ p.numbers)
    (w : World) : ((p.perform operation).outcome w).2.record n = w.record n :=
  p.perform_steps (record_steps operation h (· = w.record n)) w rfl

theorem Parser.perform_closed (p : Parser) (operation : Lifecycle) {n : Nat} (h : n ∉ p.numbers)
    (w : World) : ((p.perform operation).outcome w).2.closed n = w.closed n :=
  congrArg Prod.fst (p.perform_record operation h w)

/-- A report counts no parser as closed. -/
theorem Parser.report_closed (p : Parser) (n : Nat) (w : World) :
    ((p.perform .reportProfile).outcome w).2.closed n = w.closed n := by
  refine p.perform_steps (R := fun a b => b.closed n = a.closed n) ?_ w
  exact {
    refl := fun _ => rfl
    trans := fun h h' => h'.trans h
    called := fun _ _ => rfl
    logged := fun _ _ _ => rfl
    visited := fun number _ errand w => congrFun (errand.after_closed_of_forget) n }

theorem Parser.errand_prefix (operation : Lifecycle) (e : Dialect × Parser) (w : World) :
    w.trace <+: ((errand operation e).done w).trace :=
  e.2.prefix_perform operation w

theorem Parser.errand_closed (operation : Lifecycle) {e : Dialect × Parser} {n : Nat}
    (h : n ∉ e.2.numbers) (w : World) : ((errand operation e).done w).closed n = w.closed n :=
  e.2.perform_closed operation h w

end BuildDialect
