import BuildDialect.Proofs.Parser.Reporting

/-!
Closing a tree of parsers again and again. An interrupt may come at any leaf of any close; the next
close goes on with the leaf that was interrupted, so that in the end each leaf has been closed once,
from left to right.
-/
namespace BuildDialect

open Process

def World.rescript (w : World) (script : Script) : World := { w with script }

/-- What comes of closing a parser several times. The delegates may answer differently each time. -/
def Parser.closings (p : Parser) (w : World) : List Script → List (Answer Unit) × World
  | [] => ([], w)
  | script :: rest =>
    let (answers, final) := p.closings ((p.perform .close).outcome (w.rescript script)).2 rest
    (p.answer .close (w.rescript script) :: answers, final)

/-- The leaves at which a call has ended other than by an interrupt. -/
def settledLeaves (answers : List (Answer Unit)) : List Leaf :=
  ((answers.flatMap fun a => a.trace.leafCalls).filter LeafCall.settled).map LeafCall.leaf

/-- Closes that go on where the one before was interrupted. -/
structure Resumes (leaves : List Leaf) (answers : List (Answer Unit)) : Prop where
  calls : ∀ a ∈ answers, a.trace.calls = a.trace.leafCalls.map (LeafCall.call .close)
  covers : settledLeaves answers <+: leaves
  complete : ∀ front a back, answers = front ++ a :: back → interrupt? a.result = none →
    settledLeaves (front ++ [a]) = leaves
  /-- An interrupt comes from the last call that is made. -/
  interrupted : ∀ a ∈ answers, ∀ fault, interrupt? a.result = some fault →
    ∃ front c, a.trace.leafCalls = front ++ [c] ∧ c.fault = some fault
  stops : ∀ a ∈ answers, ∀ front c back fault, a.trace.leafCalls = front ++ c :: back →
    c.fault = some fault → fault.isInterrupt → back = [] ∧ a.result = .error fault
  resumes : ∀ front a next back, answers = front ++ a :: next :: back →
    (interrupt? a.result).isSome → ∃ before c c' after, a.trace.leafCalls = before ++ [c] ∧
      next.trace.leafCalls = c' :: after ∧ c'.leaf = c.leaf

@[simp] theorem settledLeaves_nil : settledLeaves [] = [] := rfl

theorem settledLeaves_cons (a : Answer Unit) (answers : List (Answer Unit)) :
    settledLeaves (a :: answers) =
      (a.trace.leafCalls.filter LeafCall.settled).map LeafCall.leaf ++ settledLeaves answers := by
  unfold settledLeaves
  rw [List.flatMap_cons, List.filter_append, List.map_append]

def Dispatcher.due (d : Dispatcher) (registry : List (Dialect × Parser)) (w : World) : List Leaf :=
  Parser.dueOf (Lifecycle.close.skips w) d.number registry

@[simp] theorem Dispatcher.due_rescript (d : Dispatcher) (registry : List (Dialect × Parser))
    (w : World) (script : Script) : d.due registry (w.rescript script) = d.due registry w := rfl

theorem Dispatcher.due_eq_leaves {d : Dispatcher} {registry : List (Dialect × Parser)} {w : World}
    (fresh : ∀ n ∈ (Parser.dispatcher d registry).numbers, w.closed n = []) :
    d.due registry w = (Parser.dispatcher d registry).leaves := by
  apply Parser.dueAt_eq_leavesAt (p := .dispatcher d registry) _ d.number d.default
  intro n hn dialect
  rw [← Bool.not_eq_true, Lifecycle.skips_close, fresh n hn]
  exact List.not_mem_nil

namespace Progress

variable {due next : List Leaf} {calls : List LeafCall} {interrupt : Option Fault}

/-- What is due after an interrupt begins with the leaf that was interrupted. -/
theorem next_begins {front : List LeafCall} {c : LeafCall}
    (h : Progress .close due next (front ++ [c]) interrupt)
    (settled : ∀ c' ∈ front, c'.settled) (hc : ¬ c.settled) : ∃ rest, next = c.leaf :: rest := by
  have hcovers := h.covers
  rw [h.next rfl, List.filter_append, List.filter_eq_self.mpr settled,
    List.filter_cons_of_neg hc, List.filter_nil, List.append_nil, List.map_append,
    List.prefix_append_right_inj] at hcovers
  obtain ⟨rest, hrest⟩ := hcovers
  exact ⟨rest, hrest.symm⟩

/-- If a leaf is due, it is called first. -/
theorem begins {operation : Lifecycle} {leaf : Leaf} {rest : List Leaf}
    (h : Progress operation (leaf :: rest) next calls interrupt)
    (called : interrupt ≠ none → calls ≠ []) : ∃ c more, calls = c :: more ∧ c.leaf = leaf := by
  cases calls with
  | nil =>
    by_cases hi : interrupt = none
    · cases h.all hi
    · exact absurd rfl (called hi)
  | cons c more =>
    have hcovers := h.covers
    rw [List.map_cons, List.cons_prefix_cons] at hcovers
    exact ⟨c, more, rfl, hcovers.1⟩

end Progress

/-- If an operation ends with an interrupt, it is that of the last call and of no other. -/
theorem Account.last {operation : Lifecycle} {leaves : List Leaf}
    {unfold : Fault → List (Dialect × Fault)} {trace : Trace} {result : Except Fault Unit}
    (h : Account operation leaves unfold trace result) {fault : Fault}
    (hr : interrupt? result = some fault) :
    ∃ front c, trace.leafCalls = front ++ [c] ∧ c.fault = some fault ∧
      ∀ c' ∈ front, LeafCall.settled c' := by
  obtain ⟨rfl, hf⟩ := interrupt?_eq_some.mp hr
  have ht := h.tally
  rw [unfolded, if_pos hf] at ht
  obtain ⟨_, front, dialect, hsplit, hsettled⟩ := ht.of_error
  obtain ⟨calls, last, hcalls, rfl, hlast⟩ := List.map_eq_append_iff.mp hsplit
  obtain ⟨c, rfl, hc⟩ := List.map_eq_singleton_iff.mp hlast
  refine ⟨calls, c, hcalls, congrArg Prod.snd hc, fun c' hc' => ?_⟩
  exact hsettled c'.ending (List.mem_map_of_mem hc')

section

variable {d : Dispatcher} {registry : List (Dialect × Parser)}

/-- Each answer is that of one close. -/
theorem Parser.mem_closings {p : Parser} {a : Answer Unit} (scripts : List Script) {w : World}
    (ha : a ∈ (p.closings w scripts).1) : ∃ w', a = p.answer .close w' := by
  induction scripts generalizing w with
  | nil => cases ha
  | cons script rest ih =>
    rcases List.mem_cons.mp ha with rfl | ha
    · exact ⟨_, rfl⟩
    · exact ih ha

/-- One close calls what is due, and what it settles is not due again. -/
theorem Dispatcher.close_progress (built : (Parser.dispatcher d registry).Built)
    (distinct : (Parser.dispatcher d registry).numbers.Nodup) (w : World) :
    Progress .close (d.due registry w)
      (d.due registry (((Parser.dispatcher d registry).perform .close).outcome w).2)
      ((Parser.dispatcher d registry).answer .close w).trace.leafCalls
      (interrupt? ((Parser.dispatcher d registry).answer .close w).result) :=
  Parser.answer_progress built (fun _ => distinct) w

variable (built : (Parser.dispatcher d registry).Built)
  (distinct : (Parser.dispatcher d registry).numbers.Nodup)

include built distinct

/-- Over a run, what is settled and what is still due make up what was due before. -/
theorem Parser.closings_due (scripts : List Script) (w : World) :
    d.due registry w = settledLeaves ((dispatcher d registry).closings w scripts).1 ++
      d.due registry ((dispatcher d registry).closings w scripts).2 := by
  induction scripts generalizing w with
  | nil => rfl
  | cons script rest ih =>
    have hstep := (d.close_progress built distinct (w.rescript script)).next rfl
    rw [Dispatcher.due_rescript] at hstep
    rw [closings]
    dsimp only
    rw [settledLeaves_cons, List.append_assoc, ← ih, hstep]

/-- A close that is not interrupted leaves nothing to be done. -/
theorem Parser.closings_complete {front back : List (Answer Unit)} {a : Answer Unit}
    (scripts : List Script) {w : World}
    (h : ((dispatcher d registry).closings w scripts).1 = front ++ a :: back)
    (ha : interrupt? a.result = none) :
    settledLeaves (front ++ [a]) = d.due registry w := by
  induction scripts generalizing w front with
  | nil => cases List.nil_eq_append_iff.mp h |>.2
  | cons script rest ih =>
    have hstep := d.close_progress built distinct (w.rescript script)
    rw [Dispatcher.due_rescript] at hstep
    rw [closings] at h
    dsimp only at h
    cases front with
    | nil =>
      obtain ⟨rfl, rfl⟩ := List.cons.inj h
      have hsettled := (answer_account built .close (w.rescript script)).tally.settled ha
      rw [ha] at hstep
      rw [List.nil_append, settledLeaves_cons, settledLeaves_nil, List.append_nil,
        List.filter_eq_self.mpr hsettled, hstep.all rfl]
    | cons first front =>
      obtain ⟨rfl, hrest⟩ := List.cons.inj h
      rw [List.cons_append, settledLeaves_cons, ih hrest, ← hstep.next rfl]

/-- A close begins where the one before it was interrupted. -/
theorem Parser.closings_resumes {front back : List (Answer Unit)} {a next : Answer Unit}
    (scripts : List Script) {w : World}
    (h : ((dispatcher d registry).closings w scripts).1 = front ++ a :: next :: back)
    (ha : (interrupt? a.result).isSome) :
    ∃ before c c' after, a.trace.leafCalls = before ++ [c] ∧
      next.trace.leafCalls = c' :: after ∧ c'.leaf = c.leaf := by
  induction scripts generalizing w front with
  | nil => cases List.nil_eq_append_iff.mp h |>.2
  | cons script rest ih =>
    rw [closings] at h
    dsimp only at h
    cases front with
    | cons first front => exact ih (List.cons.inj h).2
    | nil =>
      obtain ⟨rfl, hrest⟩ := List.cons.inj h
      have hstep := d.close_progress built distinct (w.rescript script)
      obtain ⟨fault, hfault⟩ := Option.isSome_iff_exists.mp ha
      obtain ⟨before, c, hcalls, hc, hsettled⟩ :=
        (answer_account built .close (w.rescript script)).last hfault
      rw [hcalls] at hstep
      have hopen : ¬ c.settled := by
        rw [LeafCall.settled, LeafCall.ending, hc, Ending.settled]
        simp [(interrupt?_eq_some.mp hfault).2]
      obtain ⟨later, hlater⟩ := hstep.next_begins hsettled hopen
      cases rest with
      | nil => cases hrest
      | cons script' rest =>
        obtain ⟨rfl, _⟩ := List.cons.inj hrest
        have hnext := d.close_progress built distinct ((((dispatcher d registry).perform
          .close).outcome (w.rescript script)).2.rescript script')
        rw [Dispatcher.due_rescript, hlater] at hnext
        obtain ⟨c', after, hafter, hleaf⟩ := hnext.begins fun hi => by
          obtain ⟨fault', hfault'⟩ := Option.ne_none_iff_exists'.mp hi
          obtain ⟨front', last, hlast, _⟩ := (answer_account built .close _).last hfault'
          rw [hlast]
          exact List.append_ne_nil_of_right_ne_nil _ (List.cons_ne_nil _ _)
        exact ⟨before, c, c', after, hcalls, hafter, hleaf⟩

end

/-- However often a tree of parsers is closed and interrupted, each close goes on where the one
before was interrupted, until every leaf has been closed. -/
theorem Parser.closings_resume {d : Dispatcher} {registry : List (Dialect × Parser)}
    (built : (Parser.dispatcher d registry).Built)
    (distinct : (Parser.dispatcher d registry).numbers.Nodup) {w : World}
    (fresh : ∀ n ∈ (Parser.dispatcher d registry).numbers, w.closed n = [])
    (scripts : List Script) :
    Resumes (Parser.dispatcher d registry).leaves
      ((Parser.dispatcher d registry).closings w scripts).1 := by
  rw [← Dispatcher.due_eq_leaves fresh]
  refine ⟨fun a ha => ?_, ?_, fun front a back h ha => ?_, fun a ha fault hf => ?_,
    fun a ha => ?_, fun front a next back h ha => ?_⟩
  · obtain ⟨w', rfl⟩ := mem_closings scripts ha
    exact (answer_account built .close w').calls
  · rw [closings_due built distinct scripts w]
    exact List.prefix_append _ _
  · exact closings_complete built distinct scripts h ha
  · obtain ⟨w', rfl⟩ := mem_closings scripts ha
    obtain ⟨front, c, hcalls, hc, _⟩ := (answer_account built .close w').last hf
    exact ⟨front, c, hcalls, hc⟩
  · obtain ⟨w', rfl⟩ := mem_closings scripts ha
    exact fun front c back fault => (answer_account built .close w').interrupted
  · exact closings_resumes built distinct scripts h ha

theorem Parser.closings_resume_sample :
    let interrupted : Script :=
      fun _ n _ => if n = 1 then some (.interrupt .keyboard none) else none
    let failing : Script := fun _ n _ => if n = 1 then some (.failure .os none) else none
    let p := dispatcher Sample.outer Sample.parts
    let answers := (p.closings World.fresh [interrupted, failing]).1
    p.Built ∧ p.numbers.Nodup ∧ (∀ n ∈ p.numbers, World.fresh.closed n = []) ∧
      answers.map (fun a => a.trace.calls) =
        [[.lifecycle "a" .close, .lifecycle "b" .close],
          [.lifecycle "b" .close, .lifecycle "c" .close]] ∧
      Resumes p.leaves answers :=
  ⟨Sample.built, Sample.numbers_nodup, fun _ _ => rfl, rfl,
    closings_resume Sample.built Sample.numbers_nodup (fun _ _ => rfl) _⟩

end BuildDialect
