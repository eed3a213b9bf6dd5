import BuildDialect.Parser.Startup
import BuildDialect.Proofs.Actions

/-!
Making dispatchers. A start only closes parsers that a factory has given, and a dispatcher is made
of a registry that was accepted.
-/
namespace BuildDialect

open Process

variable {I : World → Prop} (hI : Steady I)

include hI

theorem Errand.keeps_attempt {errand : Errand} (h : Keeps I errand.action fun _ => True)
    (operation : Lifecycle) : Keeps I (errand.attempt .startup operation) fun _ => True := by
  unfold attempt
  exact .bind h.attempt fun _ _ => .bind (Action.keeps_emit hI fun _ => rfl) fun _ _ =>
    .pure True.intro

theorem Dispatcher.keeps_create (d : Dispatcher) (entries : List (Key × Parser)) :
    Keeps I (d.create entries) fun p => ∃ registry,
      Registry.ofEntries entries d.default = .ok registry ∧ p = .dispatcher d registry := by
  unfold create
  split
  · exact .throw _
  · rename_i registry accepted
    exact .bind (Action.keeps_log hI _ _ _) fun _ _ => .pure ⟨registry, accepted, rfl⟩

variable {Q : Parser → Prop} (hQ : ∀ p, Q p → Keeps I (p.perform .close) fun _ => True)

include hQ

namespace Startup

theorem keeps_closeAll {parsers : List (Dialect × Parser)} (h : ∀ e ∈ parsers, Q e.2) :
    Keeps I (closeAll parsers) fun _ => True := by
  induction parsers with
  | nil => exact .pure True.intro
  | cons e rest ih =>
    obtain ⟨dialect, p⟩ := e
    have hrest := ih fun e he => h e (List.mem_cons_of_mem _ he)
    have hattempt : Keeps I ((Parser.errand .close (dialect, p)).attempt .startup .close)
        fun _ => True :=
      Errand.keeps_attempt hI (hQ p (h _ List.mem_cons_self)) .close
    rw [closeAll]
    refine .bind hattempt fun result _ => ?_
    cases result with
    | ok value => exact hrest
    | error fault =>
      dsimp only
      split_ifs
      · exact .throw_bind _
      · exact .bind (Action.keeps_log hI _ _ _) fun _ _ => hrest

theorem keeps_start {factories : List (Dialect × Factory)}
    (given : ∀ f ∈ factories, ∀ position p, f.2 position = .ok p → Q p)
    (dialects : List Dialect) (position : Nat) {started : List (Dialect × Parser)}
    (h : ∀ e ∈ started, Q e.2) :
    Keeps I (start factories position started dialects) fun entries => ∀ e ∈ entries, Q e.2 := by
  induction dialects generalizing position started with
  | nil => exact .pure h
  | cons dialect rest ih =>
    unfold start
    split
    · exact .throw _
    · rename_i factory hfactory
      refine .bind (Action.keeps_emit hI fun _ => rfl) fun _ _ => ?_
      split
      · split_ifs
        · exact .bind (keeps_closeAll hI hQ h) fun _ _ => .throw _
        · exact .throw _
      · rename_i p hp
        refine .bind (Action.keeps_log hI _ _ _) fun _ _ => ih _ fun e he => ?_
        rcases Registry.mem_assign he with he | rfl
        · exact h e he
        · exact given _ (Registry.mem_of_lookup hfactory) position p hp

end Startup

theorem Dispatcher.keeps_start {factories : List (Dialect × Factory)}
    (given : ∀ f ∈ factories, ∀ position p, f.2 position = .ok p → Q p) (number : Nat)
    (name : String) (settings : Settings) :
    Keeps I (Dispatcher.start number name settings factories) fun p => ∃ entries registry,
      (∀ e ∈ entries, Q e.2) ∧
        Registry.ofEntries entries settings.defaultDialect = .ok registry ∧
          p = .dispatcher ⟨number, name, settings.defaultDialect⟩ registry := by
  unfold Dispatcher.start
  have hnone : ∀ e ∈ ([] : List (Dialect × Parser)), Q e.2 := fun _ h => absurd h List.not_mem_nil
  have hstart := Startup.keeps_start hI hQ given settings.enabled 0 hnone
  dsimp only
  split_ifs
  · exact .throw_bind _
  · refine .bind hstart fun started hstarted => (keeps_create hI _ _).mono ?_
    rintro p ⟨registry, accepted, rfl⟩
    refine ⟨_, registry, ?_, accepted, rfl⟩
    intro e he
    obtain ⟨e', he', rfl⟩ := List.mem_map.mp he
    exact hstarted e' he'

end BuildDialect
