import BuildDialect.Fault

/-!
Processes: things that are done in a state. A process ends with a value or a fault, and in both
cases leaves the state that it has reached: a fault undoes nothing.
-/
namespace BuildDialect

abbrev Process (σ : Type) : Type → Type := ExceptT Fault (StateM σ)

namespace Process

variable {σ α β : Type}

def outcome (process : Process σ α) (state : σ) : Except Fault α × σ :=
  process.run.run state

/-- What a process ends with, as a value. -/
def attempt (process : Process σ α) : Process σ (Except Fault α) := fun state =>
  match process.outcome state with
  | (result, after) => (.ok result, after)

def settle : Except Fault α → Process σ α
  | .ok value => pure value
  | .error fault => throw fault

theorem outcome_pure (value : α) (state : σ) :
    outcome (pure value) state = (.ok value, state) := rfl

theorem outcome_throw (fault : Fault) (state : σ) :
    outcome (throw fault : Process σ α) state = (.error fault, state) := rfl

theorem outcome_get (state : σ) : outcome get state = (.ok state, state) := rfl

/-- What follows a process is done in the state that the process has reached, unless it failed. -/
theorem outcome_bind (process : Process σ α) (next : α → Process σ β) (state : σ) :
    outcome (process >>= next) state =
      match process.outcome state with
      | (.ok value, after) => (next value).outcome after
      | (.error fault, after) => (.error fault, after) := by
  change ExceptT.bindCont next (process.outcome state).1 (process.outcome state).2 = _
  rcases process.outcome state with ⟨_ | _, _⟩ <;> rfl

theorem outcome_attempt (process : Process σ α) (state : σ) :
    outcome process.attempt state = (.ok (process.outcome state).1, (process.outcome state).2) :=
  rfl

theorem outcome_settle (result : Except Fault α) (state : σ) :
    outcome (settle result) state = (result, state) := by
  cases result <;> rfl

end Process
end BuildDialect
