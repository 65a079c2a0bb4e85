import Polyglot.Step

/-! # What steps do

Steps that begin with something that needs no state, tests of what a step leaves, properties that a
step preserves whatever its outcome, and steps that add a fixed amount to a measure of the state
whenever they succeed.
-/

namespace Polyglot.Step

theorem lift_bind_eq_ok_iff {σ α β : Type} {outcome : Except Fault α} {next : α → Step σ β}
    {s s' : σ} {b : β} :
    ((liftM outcome : Step σ α) >>= next) s = .ok b s' ↔
      ∃ a, outcome = .ok a ∧ next a s = .ok b s' := by
  cases outcome with
  | ok a =>
    constructor
    · intro h
      exact ⟨a, rfl, h⟩
    · rintro ⟨_, ⟨⟩, h⟩
      exact h
  | error fault =>
    constructor
    · rintro ⟨⟩
    · rintro ⟨_, ⟨⟩, _⟩

theorem bind_eq_error_iff {σ α β : Type} {first : Step σ α} {next : α → Step σ β} {s s' : σ}
    {fault : Fault} : (first >>= next) s = .error fault s' ↔ first s = .error fault s' ∨
      ∃ a between, first s = .ok a between ∧ next a between = .error fault s' := by
  cases hfirst : first s with
  | ok a between =>
    rw [bind_of_ok hfirst]
    constructor
    · intro h
      exact .inr ⟨a, between, rfl, h⟩
    · rintro (⟨⟨⟩⟩ | ⟨_, _, ⟨⟩, h⟩)
      exact h
  | error _ between =>
    rw [bind_of_error hfirst]
    constructor
    · rintro ⟨⟩
      exact .inl rfl
    · rintro (⟨⟨⟩⟩ | ⟨_, _, ⟨⟩, _⟩)
      rfl

theorem outcome_bind_eq_ok_iff {ε α β : Type} {outcome : Except ε α} {next : α → Except ε β}
    {b : β} : (outcome >>= next) = .ok b ↔ ∃ a, outcome = .ok a ∧ next a = .ok b := by
  cases outcome with
  | ok a =>
    constructor
    · intro h
      exact ⟨a, rfl, h⟩
    · rintro ⟨_, ⟨⟩, h⟩
      exact h
  | error fault =>
    constructor
    · rintro ⟨⟩
    · rintro ⟨_, ⟨⟩, _⟩

theorem outcome_bind_eq_error_iff {α β : Type} {outcome : Except Fault α}
    {next : α → Except Fault β} {fault : Fault} : (outcome >>= next) = .error fault ↔
      outcome = .error fault ∨ ∃ a, outcome = .ok a ∧ next a = .error fault := by
  cases outcome with
  | ok a =>
    constructor
    · intro h
      exact .inr ⟨a, rfl, h⟩
    · rintro (⟨⟨⟩⟩ | ⟨_, ⟨⟩, h⟩)
      exact h
  | error _ =>
    constructor
    · rintro ⟨⟩
      exact .inl rfl
    · rintro (⟨⟨⟩⟩ | ⟨_, ⟨⟩, _⟩)
      rfl

theorem lift_pure {σ α : Type} (a : α) :
    (liftM (pure a : Except Fault α) : Step σ α) = pure a := rfl

theorem lift_bind {σ α β : Type} (outcome : Except Fault α) (next : α → Except Fault β) :
    (liftM (outcome >>= next) : Step σ β) =
      (liftM outcome : Step σ α) >>= fun a => (liftM (next a) : Step σ β) := by
  cases outcome <;> rfl

theorem lift_bind_of_ok {σ α β : Type} {outcome : Except Fault α} {next : α → Step σ β} {s : σ}
    {a : α} (h : outcome = .ok a) : ((liftM outcome : Step σ α) >>= next) s = next a s := by
  subst h
  rfl

theorem focus_eq_ok_iff {σ τ α : Type} {get : σ → τ} {set : τ → σ → σ} {step : Step τ α}
    {s s' : σ} {a : α} :
    focus get set step s = .ok a s' ↔ ∃ part, step (get s) = .ok a part ∧ set part s = s' := by
  cases h : step (get s) with
  | ok b part =>
    rw [focus_of_ok h]
    constructor
    · rintro ⟨⟩
      exact ⟨part, rfl, rfl⟩
    · rintro ⟨_, ⟨⟩, rfl⟩
      rfl
  | error fault part =>
    rw [focus_of_error h]
    constructor
    · rintro ⟨⟩
    · rintro ⟨_, ⟨⟩, _⟩

theorem result_eq_ok_iff {σ α : Type} {outcome : EStateM.Result Fault σ α} {a : α} :
    result outcome = .ok a ↔ ∃ s, outcome = .ok a s := by
  cases outcome <;> simp [result]

@[simp] theorem result_ofExcept {σ α : Type} (outcome : Except Fault α) (s : σ) :
    result ((ofExcept outcome : Step σ α) s) = outcome := by
  cases outcome <;> rfl

@[simp] theorem state_ofExcept {σ α : Type} (outcome : Except Fault α) (s : σ) :
    state ((ofExcept outcome : Step σ α) s) = s := by
  cases outcome <;> rfl

theorem lift_bind_of_error {σ α β : Type} {outcome : Except Fault α} {next : α → Step σ β} {s : σ}
    {fault : Fault} (h : outcome = .error fault) :
    ((liftM outcome : Step σ α) >>= next) s = .error fault s := by
  subst h
  rfl

/-- What is done with the result of a step alone does not matter for the state it leaves. -/
theorem state_bind_pure {σ α β : Type} (step : Step σ α) (next : α → β) (s : σ) :
    state ((step >>= fun a => (pure (next a) : Step σ β)) s) = state (step s) := by
  cases h : step s with
  | ok a s' => rw [bind_of_ok h]; rfl
  | error fault s' => rw [bind_of_error h]; rfl

/-- The step succeeded and left a state that passes a test. -/
def leaves {σ α : Type} (test : σ → Bool) : EStateM.Result Fault σ α → Bool
  | .ok _ s => test s
  | .error _ _ => false

theorem exists_of_leaves {σ α : Type} {test : σ → Bool} {outcome : EStateM.Result Fault σ α}
    (h : leaves test outcome = true) : ∃ a s, outcome = .ok a s ∧ test s = true := by
  cases outcome with
  | ok a s => exact ⟨a, s, rfl, h⟩
  | error fault s => cases h

/-- The step stopped with a fault and left a state that passes a test. -/
def stops {σ α : Type} (test : σ → Bool) : EStateM.Result Fault σ α → Bool
  | .ok _ _ => false
  | .error _ s => test s

theorem exists_of_stops {σ α : Type} {test : σ → Bool} {outcome : EStateM.Result Fault σ α}
    (h : stops test outcome = true) : ∃ fault s, outcome = .error fault s ∧ test s = true := by
  cases outcome with
  | ok a s => cases h
  | error fault s => exact ⟨fault, s, rfl, h⟩

/-- How the state that a step left is related to the one before it: in one way if the step stopped,
in another if it succeeded. -/
def Ends {σ α : Type} (kept grown : σ → σ → Prop) (s : σ) : EStateM.Result Fault σ α → Prop
  | .ok _ s' => grown s s'
  | .error _ s' => kept s s'

namespace Ends

variable {σ α β : Type} {kept grown : σ → σ → Prop} {s : σ}

theorem lift {outcome : Except Fault α} {next : α → Step σ β} (hkept : kept s s)
    (h : ∀ a, outcome = .ok a → Ends kept grown s (next a s)) :
    Ends kept grown s (((liftM outcome : Step σ α) >>= next) s) := by
  cases outcome with
  | error fault => exact hkept
  | ok a => exact h a rfl

theorem get_bind {next : σ → Step σ α} (h : Ends kept grown s (next s s)) :
    Ends kept grown s ((MonadState.get >>= next) s) :=
  h

theorem bind_pure {step : Step σ α} {next : α → β} (h : Ends kept grown s (step s)) :
    Ends kept grown s ((step >>= fun a => pure (next a)) s) := by
  cases hrun : step s with
  | ok a s' =>
    rw [hrun] at h
    rw [bind_of_ok hrun]
    exact h
  | error fault s' =>
    rw [hrun] at h
    rw [bind_of_error hrun]
    exact h

theorem state {outcome : EStateM.Result Fault σ α} (h : Ends kept grown s outcome) :
    kept s (Step.state outcome) ∨ grown s (Step.state outcome) := by
  cases outcome with
  | ok a s' => exact .inr h
  | error fault s' => exact .inl h

end Ends

/-- Whether or not the step stops, a property that the state had before holds of the state left. -/
def Preserves {σ α : Type} (P : σ → Prop) (step : Step σ α) : Prop :=
  ∀ ⦃s⦄, P s → P (state (step s))

namespace Preserves

variable {σ τ α β : Type} {P : σ → Prop}

theorem pure (a : α) : Preserves P (Pure.pure a : Step σ α) := by
  intro s h
  exact h

theorem ofExcept (outcome : Except Fault α) : Preserves P (Step.ofExcept outcome : Step σ α) := by
  intro s h
  cases outcome <;> exact h

theorem get : Preserves P (MonadState.get : Step σ σ) := by
  intro s h
  exact h

theorem modify {change : σ → σ} (hchange : ∀ s, P s → P (change s)) :
    Preserves P (MonadState.modifyGet fun s => ((), change s) : Step σ Unit) := by
  intro s h
  exact hchange s h

theorem bind {first : Step σ α} {next : α → Step σ β} (hfirst : Preserves P first)
    (hnext : ∀ a, Preserves P (next a)) : Preserves P (first >>= next) := by
  intro s h
  have hbetween := hfirst h
  cases hrun : first s with
  | ok a between =>
    rw [hrun] at hbetween
    rw [bind_of_ok hrun]
    exact hnext a hbetween
  | error fault between =>
    rw [hrun] at hbetween
    rwa [bind_of_error hrun]

theorem focus {get : σ → τ} {set : τ → σ → σ} {Q : τ → Prop} {step : Step τ α}
    (hget : ∀ s, P s → Q (get s)) (hset : ∀ s part, P s → Q part → P (set part s))
    (h : Preserves Q step) : Preserves P (Step.focus get set step) := by
  intro s hs
  have hpart := h (hget s hs)
  cases hrun : step (get s) with
  | ok a part =>
    rw [hrun] at hpart
    rw [focus_of_ok hrun]
    exact hset s part hs hpart
  | error fault part =>
    rw [hrun] at hpart
    rw [focus_of_error hrun]
    exact hset s part hs hpart

end Preserves

/-- An outcome whose state is changed. -/
def mapState {σ τ α : Type} (change : σ → τ) :
    EStateM.Result Fault σ α → EStateM.Result Fault τ α
  | .ok a s => .ok a (change s)
  | .error fault s => .error fault (change s)

@[simp] theorem state_mapState {σ τ α : Type} (change : σ → τ)
    (outcome : EStateM.Result Fault σ α) :
    state (mapState change outcome) = change (state outcome) := by
  cases outcome <;> rfl

/-- The step does not look at what the change affects: it does the same before and after it. -/
def Commutes {σ α : Type} (change : σ → σ) (step : Step σ α) : Prop :=
  ∀ s, step (change s) = mapState change (step s)

namespace Commutes

variable {σ τ α β : Type} {change : σ → σ}

theorem pure (a : α) : Commutes change (Pure.pure a : Step σ α) := by
  intro s
  rfl

theorem ofExcept (outcome : Except Fault α) :
    Commutes change (Step.ofExcept outcome : Step σ α) := by
  intro s
  cases outcome <;> rfl

theorem modify {f : σ → σ} (h : ∀ s, f (change s) = change (f s)) :
    Commutes change (MonadState.modifyGet fun s => ((), f s) : Step σ Unit) := by
  intro s
  change EStateM.Result.ok () (f (change s)) = .ok () (change (f s))
  rw [h]

theorem bind {first : Step σ α} {next : α → Step σ β} (hfirst : Commutes change first)
    (hnext : ∀ a, Commutes change (next a)) : Commutes change (first >>= next) := by
  intro s
  have hstart := hfirst s
  cases hrun : first s with
  | ok a between =>
    rw [hrun] at hstart
    rw [bind_of_ok hrun, bind_of_ok hstart]
    exact hnext a between
  | error fault between =>
    rw [hrun] at hstart
    rw [bind_of_error hrun, bind_of_error hstart]
    rfl

theorem get_bind {next : σ → Step σ α} (hsame : ∀ s, next (change s) = next s)
    (hnext : ∀ s, Commutes change (next s)) : Commutes change (MonadState.get >>= next) := by
  intro s
  change next (change s) (change s) = mapState change (next s s)
  rw [hsame, hnext]

theorem focus {get : σ → τ} {set : τ → σ → σ} {inner : τ → τ} {step : Step τ α}
    (hget : ∀ s, get (change s) = inner (get s))
    (hset : ∀ s part, set (inner part) (change s) = change (set part s))
    (h : Commutes inner step) : Commutes change (Step.focus get set step) := by
  intro s
  have hstep := h (get s)
  rw [← hget] at hstep
  cases hrun : step (get s) with
  | ok a part =>
    rw [hrun] at hstep
    rw [focus_of_ok hrun, focus_of_ok hstep, hset]
    rfl
  | error fault part =>
    rw [hrun] at hstep
    rw [focus_of_error hrun, focus_of_error hstep, hset]
    rfl

end Commutes

/-- Whenever the step succeeds, a measure of the state grows by the given amount. -/
def Adds {σ α : Type} (measure : σ → Nat) (amount : Nat) (step : Step σ α) : Prop :=
  ∀ ⦃s a s'⦄, step s = .ok a s' → measure s' = measure s + amount

namespace Adds

variable {σ τ α β : Type} {measure : σ → Nat} {m n : Nat}

theorem pure (a : α) : Adds measure 0 (Pure.pure a : Step σ α) := by
  rintro s _ _ ⟨⟩
  rfl

theorem ofExcept (outcome : Except Fault α) :
    Adds measure 0 (Step.ofExcept outcome : Step σ α) := by
  cases outcome with
  | ok a => exact pure a
  | error fault => rintro s _ _ ⟨⟩

theorem get : Adds measure 0 (MonadState.get : Step σ σ) := by
  rintro s _ _ ⟨⟩
  rfl

theorem modify {change : σ → σ} (h : ∀ s, measure (change s) = measure s) :
    Adds measure 0 (MonadState.modifyGet fun s => ((), change s) : Step σ Unit) := by
  rintro s _ _ ⟨⟩
  exact h s

theorem bind {first : Step σ α} {next : α → Step σ β} (hfirst : Adds measure m first)
    (hnext : ∀ a, Adds measure n (next a)) : Adds measure (m + n) (first >>= next) := by
  intro s b s' h
  obtain ⟨a, between, hFirst, hNext⟩ := bind_eq_ok_iff.mp h
  rw [hnext a hNext, hfirst hFirst, Nat.add_assoc]

/-- A sequence whose first part adds nothing. -/
theorem after {first : Step σ α} {next : α → Step σ β} (hfirst : Adds measure 0 first)
    (hnext : ∀ a, Adds measure n (next a)) : Adds measure n (first >>= next) := by
  rw [← Nat.zero_add n]
  exact bind hfirst hnext

theorem focus {get : σ → τ} {set : τ → σ → σ} {inner : τ → Nat} {step : Step τ α}
    (hmeasure : ∀ s part, measure (set part s) + inner (get s) = inner part + measure s)
    (h : Adds inner m step) : Adds measure m (Step.focus get set step) := by
  intro s a s' hrun
  rw [Step.focus] at hrun
  split at hrun
  · next part hpart =>
    obtain ⟨rfl, rfl⟩ := hrun
    have hstep := h hpart
    have hset := hmeasure s part
    omega
  · cases hrun

end Adds

end Polyglot.Step
