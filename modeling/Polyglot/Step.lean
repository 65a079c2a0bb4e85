import Polyglot.Fault

/-! # Steps

A step changes a state and either returns a result or stops with a fault. What a step did before
it stopped stays done: the state after a fault is part of its outcome.
-/

namespace Polyglot

/-- A computation on states of type `σ` that may stop with a fault. -/
abbrev Step (σ : Type) := EStateM Fault σ

namespace Step

variable {σ τ α β : Type}

def ofExcept : Except Fault α → Step σ α
  | .ok a => pure a
  | .error fault => throw fault

instance : MonadLift (Except Fault) (Step σ) where
  monadLift := ofExcept

/-- A step on one part of a larger state. -/
def focus (get : σ → τ) (set : τ → σ → σ) (step : Step τ α) : Step σ α := fun state =>
  match step (get state) with
  | .ok a part => .ok a (set part state)
  | .error fault part => .error fault (set part state)

/-- A step on one alternative of a state. -/
def within (wrap : τ → σ) (step : Step τ α) (part : τ) : EStateM.Result Fault σ α :=
  match step part with
  | .ok a part => .ok a (wrap part)
  | .error fault part => .error fault (wrap part)

/-- The result of a step without the state it left. -/
def result : EStateM.Result Fault σ α → Except Fault α
  | .ok a _ => .ok a
  | .error fault _ => .error fault

/-- The state that a step left, whether or not it stopped. -/
def state : EStateM.Result Fault σ α → σ
  | .ok _ s => s
  | .error _ s => s

@[simp] theorem pure_apply (a : α) (s : σ) : (pure a : Step σ α) s = .ok a s := rfl

@[simp] theorem throw_apply (fault : Fault) (s : σ) :
    (throw fault : Step σ α) s = .error fault s := rfl

@[simp] theorem get_apply (s : σ) : (get : Step σ σ) s = .ok s s := rfl

@[simp] theorem modify_apply (f : σ → σ) (s : σ) : (modify f : Step σ Unit) s = .ok () (f s) := rfl

@[simp] theorem ofExcept_apply_ok (a : α) (s : σ) :
    (ofExcept (.ok a) : Step σ α) s = .ok a s := rfl

@[simp] theorem ofExcept_apply_error (fault : Fault) (s : σ) :
    (ofExcept (.error fault) : Step σ α) s = .error fault s := rfl

theorem bind_of_ok {first : Step σ α} {next : α → Step σ β} {s s' : σ} {a : α}
    (h : first s = .ok a s') : (first >>= next) s = next a s' := by
  simp [bind, EStateM.bind, h]

theorem bind_of_error {first : Step σ α} {next : α → Step σ β} {s s' : σ} {fault : Fault}
    (h : first s = .error fault s') : (first >>= next) s = .error fault s' := by
  simp [bind, EStateM.bind, h]

/-- A sequence succeeds exactly if its first part does and the second one does after it. -/
theorem bind_eq_ok_iff {first : Step σ α} {next : α → Step σ β} {s s' : σ} {b : β} :
    (first >>= next) s = .ok b s' ↔
      ∃ a between, first s = .ok a between ∧ next a between = .ok b s' := by
  constructor
  · intro h
    cases hFirst : first s with
    | ok a between => exact ⟨a, between, rfl, by rwa [bind_of_ok hFirst] at h⟩
    | error fault between =>
      rw [bind_of_error hFirst] at h
      cases h
  · rintro ⟨a, between, hFirst, hNext⟩
    rw [bind_of_ok hFirst, hNext]

theorem focus_of_ok {get : σ → τ} {set : τ → σ → σ} {step : Step τ α} {s : σ} {part : τ} {a : α}
    (h : step (get s) = .ok a part) : focus get set step s = .ok a (set part s) := by
  simp [focus, h]

theorem focus_of_error {get : σ → τ} {set : τ → σ → σ} {step : Step τ α} {s : σ} {part : τ}
    {fault : Fault} (h : step (get s) = .error fault part) :
    focus get set step s = .error fault (set part s) := by
  simp [focus, h]

end Step

end Polyglot
