import BuildDialect.Proofs.Parser.Cleanup
import Mathlib.Data.List.Perm.Subperm

/-!
Which of the parsers that were started for a dispatcher are closed again, if the start fails.
-/
namespace BuildDialect

open Process

namespace Startup

/-- The parsers that factories give for settings: none, unless every enabled dialect has one. -/
def obtained (settings : Settings) (factories : List (Dialect × Factory)) :
    List (Dialect × Parser) :=
  if ∀ dialect ∈ settings.enabled, dialect ∈ factories.map Prod.fst then
    given factories 0 settings.enabled
  else []

/-- A start is given up because a factory fails in the ordinary way. -/
def GivenUp (settings : Settings) (factories : List (Dialect × Factory)) : Prop :=
  ∃ dialect fault, failed? factories 0 settings.enabled = some (dialect, fault) ∧
    fault.isInterrupt = false

/-- The trace of a start before it closes anything. -/
def opening (settings : Settings) (factories : List (Dialect × Factory)) : Trace :=
  if ∀ dialect ∈ settings.enabled, dialect ∈ factories.map Prod.fst then
    events (given factories 0 settings.enabled) ++
      (failed? factories 0 settings.enabled).toList.map fun failure => .called (.factory failure.1)
  else []

/-- The close of each of some parsers is run. -/
def LeavesNone (parsers : List (Dialect × Parser)) (closes : List Attempt) : Prop :=
  ∀ e ∈ parsers, ∃ a ∈ closes, a.errand.parser = e.2 ∧ a.errand.action = e.2.perform .close

variable {parsers : List (Dialect × Parser)} {w final : World} {result : Except Fault Unit}
  {closes : List Attempt}

theorem Ran.none (parsers : List (Dialect × Parser)) (w : World) : Ran parsers w w [] where
  order := List.nil_prefix
  before := fun front a back h => by cases List.nil_eq_append_iff.mp h |>.2
  after := rfl
  called := List.forall_mem_nil _
  trace := (List.append_nil _).symm

theorem Ran.entries (ran : Ran parsers w final closes) :
    closes.map (fun a => (a.errand.dialect, a.errand.parser)) <+: parsers := by
  have horder := ran.order.map fun errand => (errand.dialect, errand.parser)
  have hsame : (parsers.map (Parser.errand .close)).map (fun errand =>
      (errand.dialect, errand.parser)) = parsers := by
    rw [List.map_map]
    exact List.map_id parsers
  rw [List.map_map, hsame] at horder
  exact horder

theorem Ran.action_eq (ran : Ran parsers w final closes) {a : Attempt} (ha : a ∈ closes) :
    a.errand.action = a.errand.parser.perform .close := by
  obtain ⟨e, -, he⟩ := List.mem_map.mp (ran.order.subset (List.mem_map_of_mem ha))
  rw [← he]
  rfl

/-- Closes of what is gathered of different parsers are closes of all of them just if nothing is
gathered over another and only the last close is interrupted. -/
theorem Closed.leavesNone_iff (closed : Closed (Registry.gather parsers) w final result closes)
    (distinct : (parsers.map Prod.snd).Nodup) :
    LeavesNone parsers closes ↔ (parsers.map Prod.fst).Nodup ∧
      ∀ a ∈ closes, a.settled = false → parsers.getLast?.map Prod.snd = some a.errand.parser := by
  have hentries := closed.toRan.entries
  constructor
  · -- so many closes are run only if nothing was gathered over another
    intro h
    have hsub : parsers.map Prod.snd ⊆ closes.map fun a => a.errand.parser := by
      intro p hp
      obtain ⟨e, he, rfl⟩ := List.mem_map.mp hp
      obtain ⟨a, ha, hparser, -⟩ := h e he
      exact List.mem_map.mpr ⟨a, ha, hparser⟩
    have hlength := (distinct.subperm hsub).length_le
    rw [List.length_map, List.length_map] at hlength
    have hle := hentries.length_le
    rw [List.length_map] at hle
    have hnodup := Registry.nodup_of_length_gather (Nat.le_trans hlength hle)
    rw [Registry.gather_of_nodup hnodup] at hentries
    have hall := hentries.eq_of_length_le (by rwa [List.length_map])
    refine ⟨hnodup, fun a ha hopen => ?_⟩
    obtain ⟨front, back, hsplit⟩ := List.append_of_mem ha
    rw [closed.last front a back hsplit hopen] at hsplit
    rw [← hall, hsplit, List.map_append, List.map_singleton, List.getLast?_concat]
    rfl
  · rintro ⟨hnodup, hlast⟩ e he
    rw [Registry.gather_of_nodup hnodup] at hentries
    -- an interrupt breaks off what comes after it, so it does no harm at the last parser
    have hall : closes.map (fun a => (a.errand.dialect, a.errand.parser)) = parsers := by
      by_cases hsettled : ∀ a ∈ closes, a.settled
      · have hlength := congrArg List.length (closed.all hsettled)
        rw [List.length_map, List.length_map, Registry.gather_of_nodup hnodup] at hlength
        refine hentries.eq_of_length_le ?_
        rw [List.length_map]
        exact Nat.le_of_eq hlength.symm
      · push Not at hsettled
        obtain ⟨a, ha, hopen⟩ := hsettled
        have hparser := hlast a ha (Bool.eq_false_iff.mpr hopen)
        obtain ⟨front, back, hsplit⟩ := List.append_of_mem ha
        obtain ⟨others, hothers⟩ := hentries
        rcases List.eq_nil_or_concat others with rfl | ⟨init, e', rfl⟩
        · rw [← hothers, List.append_nil]
        · rw [← hothers, List.concat_eq_append, ← List.append_assoc, List.getLast?_concat]
            at hparser
          rw [← hothers, List.map_append, List.nodup_append] at distinct
          refine absurd (Option.some.inj hparser).symm (distinct.2.2 _ ?_ _ ?_)
          · exact List.mem_map.mpr ⟨_, List.mem_map_of_mem ha, rfl⟩
          · rw [List.concat_eq_append]
            exact List.mem_map_of_mem (List.mem_append_right _ List.mem_cons_self)
    rw [← hall] at he
    obtain ⟨a, ha, rfl⟩ := List.mem_map.mp he
    exact ⟨a, ha, rfl, closed.toRan.action_eq ha⟩

end Startup

def Dispatcher.launch (number : Nat) (name : String) (settings : Settings)
    (factories : List (Dialect × Factory)) (w : World) : Answer Parser :=
  ⟨((Dispatcher.start number name settings factories).outcome w).1,
    ((Dispatcher.start number name settings factories).outcome w).2.since w⟩

open Startup

variable {number : Nat} {name : String} {settings : Settings}
  {factories : List (Dialect × Factory)} {w : World} {fault : Fault}

/-- A start that fails closes parsers only if it is given up because a factory failed in the
ordinary way; they are what it has gathered. -/
theorem Dispatcher.launch_ran
    (fails : (Dispatcher.launch number name settings factories w).result = .error fault) :
    let registry := Registry.gather (obtained settings factories)
    let middle := w.extend (opening settings factories)
    let final := ((Dispatcher.start number name settings factories).outcome w).2
    (obtained settings factories = [] ∨ ¬ GivenUp settings factories) ∧
        Ran registry middle final [] ∨
      GivenUp settings factories ∧ ∃ result closes, Closed registry middle final result closes := by
  intro registry middle final
  by_cases provided : ∀ dialect ∈ settings.enabled, dialect ∈ factories.map Prod.fst
  · have hobtained : obtained settings factories = given factories 0 settings.enabled :=
      if_pos provided
    have hopening : opening settings factories = events (given factories 0 settings.enabled) ++ _ :=
      if_pos provided
    cases hfailed : failed? factories 0 settings.enabled with
    | none =>
      have hno : ¬ GivenUp settings factories := by
        rintro ⟨dialect, cause, hcause, _⟩
        rw [hfailed] at hcause
        cases hcause
      have hfinal : final = middle := by
        unfold launch at fails
        rw [outcome_start_given provided hfailed] at fails
        simp only [final, middle]
        rw [outcome_start_given provided hfailed, outcome_create_error fails, hopening, hfailed]
        exact congrArg w.extend (List.append_nil _).symm
      rw [hfinal]
      exact Or.inl ⟨Or.inr hno, .none registry middle⟩
    | some failure =>
      obtain ⟨dialect, cause⟩ := failure
      have hmiddle : middle = w.extend (events (given factories 0 settings.enabled) ++
          [.called (.factory dialect)]) := by
        simp only [middle]
        rw [hopening, hfailed]
        rfl
      obtain ⟨ended, last, closes, houtcome, hclosed⟩ :
          ∃ ended last closes, (Dispatcher.start number name settings factories).outcome w =
            (.error (raised cause ended), last) ∧ _ := outcome_start_abandoned provided hfailed
      have hfinal : final = last := congrArg Prod.snd houtcome
      rw [← hmiddle, ← hfinal, ← hobtained] at hclosed
      cases hcause : cause.isInterrupt with
      | true =>
        have hno : ¬ GivenUp settings factories := by
          rintro ⟨_, _, h, hf⟩
          cases hfailed.symm.trans h
          rw [hcause] at hf
          cases hf
        rw [if_pos hcause] at hclosed
        rw [hclosed.2.1]
        exact Or.inl ⟨Or.inr hno, .none registry middle⟩
      | false =>
        rw [hcause] at hclosed
        exact Or.inr ⟨⟨dialect, cause, hfailed, hcause⟩, ended, closes, hclosed⟩
  · have hnone : obtained settings factories = [] := if_neg provided
    have hopening : opening settings factories = [] := if_neg provided
    have hfinal : final = middle := by
      simp only [final, middle]
      rw [outcome_start_missing provided, hopening, World.extend, List.append_nil]
    rw [hfinal]
    exact Or.inl ⟨Or.inl hnone, .none registry middle⟩

/-- When a start fails, all of the parsers that factories have given, each a new one, are closed if
and only if there are none, or a factory has failed in the ordinary way, no dialect was started
twice, and no close but that of the last parser was interrupted. -/
theorem Dispatcher.launch_leavesNone_iff
    (fails : (Dispatcher.launch number name settings factories w).result = .error fault)
    (distinct : ((obtained settings factories).map Prod.snd).Nodup) :
    ∃ closes, Ran (Registry.gather (obtained settings factories))
        (w.extend (opening settings factories))
        ((Dispatcher.start number name settings factories).outcome w).2 closes ∧
      (LeavesNone (obtained settings factories) closes ↔
        obtained settings factories = [] ∨ GivenUp settings factories ∧
          ((obtained settings factories).map Prod.fst).Nodup ∧
          ∀ a ∈ closes, a.settled = false →
            (obtained settings factories).getLast?.map Prod.snd = some a.errand.parser) := by
  rcases launch_ran fails with ⟨hor, hran⟩ | ⟨hgiven, result, closes, hclosed⟩
  · refine ⟨[], hran, ?_⟩
    rcases hor with hnone | hno
    · simp [LeavesNone, hnone]
    · constructor
      · intro h
        refine Or.inl (List.eq_nil_iff_forall_not_mem.mpr fun e he => ?_)
        obtain ⟨a, ha, _⟩ := h e he
        cases ha
      · rintro (hnone | ⟨hgiven, _⟩)
        · simp [LeavesNone, hnone]
        · exact absurd hgiven hno
  · refine ⟨closes, hclosed.toRan, ?_⟩
    rw [hclosed.leavesNone_iff distinct]
    refine ⟨fun h => Or.inr ⟨hgiven, h⟩, ?_⟩
    rintro (hnone | h)
    · have hran := hclosed.toRan.entries
      rw [hnone] at hran ⊢
      have hcloses := List.map_eq_nil_iff.mp (List.prefix_nil.mp hran)
      simp [hcloses]
    · exact h.2

def Startup.Sample.breaking : List (Dialect × Factory) :=
  [(.pythonDsl, fun _ => .ok (.delegate ⟨0, "a", "a", [], []⟩)),
    (.skylark, fun _ => .error (.failure .runtime none))]

theorem Dispatcher.launch_leavesNone_iff_sample :
    let answer := Dispatcher.launch 5 "h" Settings.standard Startup.Sample.breaking World.fresh
    let parsers := obtained Settings.standard Startup.Sample.breaking
    answer.result = .error (.failure .runtime none) ∧
      parsers = [(.pythonDsl, .delegate ⟨0, "a", "a", [], []⟩)] ∧
      answer.trace.calls =
        [.factory .pythonDsl, .factory .skylark, .lifecycle "a" .close] ∧
      ∃ closes, Ran (Registry.gather parsers)
          (World.fresh.extend (opening Settings.standard Startup.Sample.breaking))
          ((Dispatcher.start 5 "h" Settings.standard Startup.Sample.breaking).outcome
            World.fresh).2 closes ∧
        LeavesNone parsers closes := by
  intro answer parsers
  have fails : answer.result = .error (.failure .runtime none) := rfl
  have distinct : (parsers.map Prod.snd).Nodup := List.nodup_singleton _
  obtain ⟨closes, hran, hiff⟩ := launch_leavesNone_iff fails distinct
  refine ⟨fails, rfl, rfl, closes, hran, hiff.mpr (Or.inr ⟨?_, ?_, ?_⟩)⟩
  · exact ⟨.skylark, .failure .runtime none, rfl, rfl⟩
  · exact List.nodup_singleton _
  · intro a ha _
    have hentry := hran.entries.subset (List.mem_map_of_mem ha)
    have hparser := congrArg Prod.snd (List.mem_singleton.mp hentry)
    exact congrArg some hparser.symm

/-- A parser is left open if the default turns out not to be enabled when it is started. -/
theorem Dispatcher.launch_leaks :
    ¬ ∀ (settings : Settings) (factories : List (Dialect × Factory)) (w : World) (fault : Fault),
      (Dispatcher.launch 5 "h" settings factories w).result = .error fault →
      ∀ dialect d, (dialect, .delegate d) ∈ obtained settings factories →
        .lifecycle d.name .close ∈ (Dispatcher.launch 5 "h" settings factories w).trace.calls := by
  intro h
  have hcall := h ⟨.skylark, [.pythonDsl]⟩ Startup.Sample.breaking World.fresh _ rfl .pythonDsl
    ⟨0, "a", "a", [], []⟩ List.mem_cons_self
  have hcalls : (Dispatcher.launch 5 "h" ⟨.skylark, [.pythonDsl]⟩ Startup.Sample.breaking
    World.fresh).trace.calls = [.factory .pythonDsl] := rfl
  rw [hcalls] at hcall
  cases List.mem_singleton.mp hcall

end BuildDialect
