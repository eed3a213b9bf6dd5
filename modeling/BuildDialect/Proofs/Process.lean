import BuildDialect.Process

/-!
Invariants of processes. A fault undoes nothing, so an invariant has to hold of the state in which
a process ends with a fault too; what the process gives is of concern only if it gives something.
-/
namespace BuildDialect.Process

variable {σ α β : Type}

/-- A process keeps an invariant of the state, and what it gives has a property. -/
def Keeps (I : σ → Prop) (process : Process σ α) (post : α → Prop) : Prop :=
  ∀ state, I state → I (process.outcome state).2 ∧
    ∀ value, (process.outcome state).1 = .ok value → post value

/-- What holds of the state after a process, and after what follows it there, holds in the end. -/
theorem bind_after {process : Process σ α} {next : α → Process σ β} {state : σ} {R : σ → Prop}
    (h : R (process.outcome state).2)
    (hnext : ∀ value, R ((next value).outcome (process.outcome state).2).2) :
    R ((process >>= next).outcome state).2 := by
  rw [outcome_bind]
  rcases hr : process.outcome state with ⟨fault | value, after⟩
  · rw [hr] at h
    exact h
  · rw [hr] at hnext
    exact hnext value

namespace Keeps

variable {I : σ → Prop} {process : Process σ α} {mid : α → Prop} {next : α → Process σ β}
  {post : β → Prop}

theorem mono {weaker : α → Prop} (h : Keeps I process mid)
    (hp : ∀ value, mid value → weaker value) : Keeps I process weaker :=
  fun state hs => ⟨(h state hs).1, fun value hv => hp value ((h state hs).2 value hv)⟩

theorem trivial (h : Keeps I process mid) : Keeps I process fun _ => True :=
  h.mono fun _ _ => True.intro

theorem pure {value : α} (h : mid value) : Keeps I (pure value : Process σ α) mid :=
  fun _ hs => ⟨hs, fun _ hv => Except.ok.inj hv ▸ h⟩

theorem throw (fault : Fault) : Keeps I (throw fault : Process σ α) mid :=
  fun _ hs => ⟨hs, fun _ hv => by cases hv⟩

theorem get : Keeps I (MonadState.get : Process σ σ) I :=
  fun _ hs => ⟨hs, fun _ hv => Except.ok.inj hv ▸ hs⟩

theorem modify {step : σ → σ} (h : ∀ state, I state → I (step state)) :
    Keeps I (modify step : Process σ PUnit) fun _ => True :=
  fun state hs => ⟨h state hs, fun _ _ => True.intro⟩

theorem bind (h : Keeps I process mid) (hnext : ∀ value, mid value → Keeps I (next value) post) :
    Keeps I (process >>= next) post := by
  intro state hs
  obtain ⟨hafter, hvalue⟩ := h state hs
  rw [outcome_bind]
  rcases hr : process.outcome state with ⟨fault | value, after⟩
  · rw [hr] at hafter
    exact ⟨hafter, fun _ hv => by cases hv⟩
  · rw [hr] at hafter hvalue
    exact hnext value (hvalue value rfl) after hafter

/-- Nothing follows a fault. -/
theorem throw_bind (fault : Fault) :
    Keeps I ((MonadExcept.throw fault : Process σ α) >>= next) post := by
  have h : Keeps I (MonadExcept.throw fault : Process σ α) fun _ => False := throw fault
  exact h.bind fun _ hf => hf.elim

/-- What follows a process that only reads the state is done in the same state. -/
theorem bind_read {state : σ} {R : σ → Prop} (h : Keeps (· = state) process mid) (hs : R state)
    (hnext : ∀ value, mid value → R ((next value).outcome state).2) :
    R ((process >>= next).outcome state).2 := by
  obtain ⟨hafter, hvalue⟩ := h state rfl
  rw [outcome_bind]
  rcases hr : process.outcome state with ⟨fault | value, after⟩
  · rw [hr] at hafter
    cases hafter
    exact hs
  · rw [hr] at hafter hvalue
    cases hafter
    exact hnext value (hvalue value rfl)

theorem attempt (h : Keeps I process mid) : Keeps I process.attempt fun _ => True :=
  fun state hs => ⟨(h state hs).1, fun _ _ => True.intro⟩

theorem settle {result : Except Fault α} : Keeps I (settle result) fun _ => True := by
  cases result with
  | ok value => exact pure True.intro
  | error fault => exact throw fault

end Keeps
end BuildDialect.Process
