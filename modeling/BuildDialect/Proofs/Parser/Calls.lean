import BuildDialect.Proofs.Parser.Frame
import BuildDialect.Session.Reply

/-!
The calls to delegates in an operation on a tree of parsers. They are made at leaves of the tree,
from left to right, and they add up to how the operation ends: it ends with the interrupt of the
last call, or with the ordinary failures of all of them.
-/
namespace BuildDialect

open Process

structure LeafCall where
  leaf : Leaf
  fault : Option Fault

abbrev Ending := Dialect × Option Fault

/-- Whether an ending is other than by an interrupt. -/
def Ending.settled (ending : Ending) : Bool := !(ending.2.any Fault.isInterrupt)

def Ending.failure? (ending : Ending) : Option (Dialect × Fault) :=
  ending.2.map fun fault => (ending.1, fault)

namespace LeafCall

def ending (c : LeafCall) : Ending := (c.leaf.dialect, c.fault)

def settled (c : LeafCall) : Bool := c.ending.settled

def failure? (c : LeafCall) : Option (Dialect × Fault) := c.ending.failure?

def call (operation : Lifecycle) (c : LeafCall) : Call :=
  .lifecycle c.leaf.delegate.name operation

end LeafCall

/-- The call that a visit is, if it is one to a delegate. -/
def Visit.leafCall? : Visit → Option LeafCall
  | ⟨.dispatcher number, _, dialect, .delegate d, fault⟩ => some ⟨⟨number, dialect, d⟩, fault⟩
  | _ => none

def Trace.leafCalls (trace : Trace) : List LeafCall := trace.visits.filterMap Visit.leafCall?

@[simp] theorem Trace.leafCalls_append (a b : Trace) :
    leafCalls (a ++ b) = leafCalls a ++ leafCalls b := by
  simp [leafCalls]

/-- What an operation on a parser ends with, and what happens in it. -/
def Parser.answer (p : Parser) (operation : Lifecycle) (w : World) : Answer Unit :=
  ⟨((p.perform operation).outcome w).1, ((p.perform operation).outcome w).2.since w⟩

/-- What the endings of things done one after the other come to. An interrupt is the last ending;
otherwise the failures are listed in order. -/
inductive Tally : List Ending → Except Fault (List (Dialect × Fault)) → Prop
  | nil : Tally [] (.ok [])
  | interrupted {dialect : Dialect} {fault : Fault} (h : fault.isInterrupt) :
      Tally [(dialect, some fault)] (.error fault)
  | returned {dialect : Dialect} {endings : List Ending}
      {result : Except Fault (List (Dialect × Fault))} (rest : Tally endings result) :
      Tally ((dialect, none) :: endings) result
  | failed {dialect : Dialect} {fault : Fault} {endings : List Ending}
      {result : Except Fault (List (Dialect × Fault))} (h : fault.isInterrupt = false)
      (rest : Tally endings result) :
      Tally ((dialect, some fault) :: endings) (result.map ((dialect, fault) :: ·))

namespace Tally

variable {endings : List Ending} {result : Except Fault (List (Dialect × Fault))}

theorem append {first : List Ending} {failures : List (Dialect × Fault)}
    (h : Tally first (.ok failures)) (rest : Tally endings result) :
    Tally (first ++ endings) (result.map (failures ++ ·)) := by
  generalize hr : Except.ok failures = r at h
  induction h generalizing failures with
  | nil =>
    cases hr
    have hid : result.map ([] ++ ·) = result := by cases result <;> rfl
    rwa [hid, List.nil_append]
  | interrupted h => cases hr
  | returned h ih => exact .returned (ih hr)
  | @failed dialect fault endings' result' h h' ih =>
    cases result' with
    | error f => cases hr
    | ok failures' =>
      cases hr
      have hmap : result.map ((dialect, fault) :: failures' ++ ·) =
          (result.map (failures' ++ ·)).map ((dialect, fault) :: ·) := by
        cases result <;> rfl
      rw [hmap]
      exact .failed h (ih rfl)

/-- If there is no interrupt, the result lists the failures of all endings. -/
theorem of_ok {failures : List (Dialect × Fault)} (h : Tally endings (.ok failures)) :
    (∀ ending ∈ endings, ending.settled) ∧ endings.filterMap Ending.failure? = failures := by
  generalize hr : Except.ok failures = r at h
  induction h generalizing failures with
  | nil =>
    cases hr
    exact ⟨fun ending he => absurd he List.not_mem_nil, rfl⟩
  | interrupted h => cases hr
  | returned h ih =>
    obtain ⟨hs, hf⟩ := ih hr
    exact ⟨List.forall_mem_cons.mpr ⟨rfl, hs⟩, hf⟩
  | @failed dialect fault endings' result' h h' ih =>
    cases result' with
    | error f => cases hr
    | ok failures' =>
      cases hr
      obtain ⟨hs, hf⟩ := ih rfl
      refine ⟨List.forall_mem_cons.mpr ⟨?_, hs⟩, ?_⟩
      · simp [Ending.settled, h]
      · have hfailure : Ending.failure? (dialect, some fault) = some (dialect, fault) := rfl
        rw [List.filterMap_cons_some hfailure, hf]

/-- If the result is a fault, it is the interrupt of the last ending and of no other. -/
theorem of_error {fault : Fault} (h : Tally endings (.error fault)) :
    fault.isInterrupt ∧ ∃ front dialect, endings = front ++ [(dialect, some fault)] ∧
      ∀ ending ∈ front, Ending.settled ending := by
  generalize hr : Except.error fault = r at h
  induction h with
  | nil => cases hr
  | interrupted h =>
    cases hr
    exact ⟨h, [], _, rfl, fun ending he => absurd he List.not_mem_nil⟩
  | returned h ih =>
    obtain ⟨hi, front, dialect, rfl, hs⟩ := ih hr
    exact ⟨hi, _ :: front, dialect, rfl, List.forall_mem_cons.mpr ⟨rfl, hs⟩⟩
  | @failed dialect' fault' endings' result' h h' ih =>
    cases result' with
    | ok failures' => cases hr
    | error f =>
      cases hr
      obtain ⟨hi, front, dialect, rfl, hs⟩ := ih rfl
      refine ⟨hi, _ :: front, dialect, rfl, List.forall_mem_cons.mpr ⟨?_, hs⟩⟩
      simp [Ending.settled, h]

/-- An interrupt is the last ending and the result. -/
theorem interrupt {front back : List Ending} {dialect : Dialect} {fault : Fault}
    (h : Tally (front ++ (dialect, some fault) :: back) result) (hf : fault.isInterrupt) :
    back = [] ∧ result = .error fault := by
  induction front generalizing result with
  | nil =>
    cases h with
    | interrupted h => exact ⟨rfl, rfl⟩
    | failed h rest => exact absurd hf (by simp [h])
  | cons ending front ih =>
    generalize hall : (ending :: front) ++ (dialect, some fault) :: back = all at h
    cases h with
    | nil => cases hall
    | interrupted h => simp at hall
    | returned rest =>
      cases hall
      exact ih rest
    | failed h rest =>
      cases hall
      obtain ⟨hback, hresult⟩ := ih rest
      exact ⟨hback, by rw [hresult]; rfl⟩

end Tally
end BuildDialect
