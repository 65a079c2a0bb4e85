import Mathlib.Data.List.Induction
import Polyglot.Proofs.Script.Basic
import Polyglot.Proofs.Step
import Polyglot.Suite.Compile

/-! # Sessions

A file is not given up when it refuses something: whoever writes it may go on, with the state that
the refused step left. The states of a session are those after some number of attempts, each of
which may have failed. The transcript of a session says what was answered to each of them.
-/

namespace Polyglot

namespace Step

variable {σ τ α β γ : Type}

/-- The state after a number of steps, each taken in the state that the one before it left, whether
or not that one stopped. -/
def attempt (step : α → Step σ β) : List α → σ → σ
  | [], s => s
  | a :: rest, s => attempt step rest (state (step a s))

theorem attempt_append (step : α → Step σ β) (first second : List α) (s : σ) :
    attempt step (first ++ second) s = attempt step second (attempt step first s) := by
  induction first generalizing s with
  | nil => rfl
  | cons a rest ih => exact ih _

/-- What every step preserves holds throughout a session. -/
theorem attempt_invariant {step : α → Step σ β} {P : σ → Prop}
    (hstep : ∀ a, Preserves P (step a)) (attempts : List α) {s : σ} (h : P s) :
    P (attempt step attempts s) := by
  induction attempts generalizing s with
  | nil => exact h
  | cons a rest ih => exact ih (hstep a h)

/-- Two sessions that go through the same attempts stay related if every step keeps them so. -/
theorem attempt_related {first : α → Step σ β} {second : α → Step τ γ} {R : σ → τ → Prop}
    (hstep : ∀ a s t, R s t → R (state (first a s)) (state (second a t))) (attempts : List α)
    {s : σ} {t : τ} (h : R s t) : R (attempt first attempts s) (attempt second attempts t) := by
  induction attempts generalizing s t with
  | nil => exact h
  | cons a rest ih => exact ih (hstep a s t h)

end Step

namespace Call

/-- The block that a call goes to; declarations go to none. -/
def block? : Call → Option Handle
  | act block _ | enter block _ | branch block _ => some block
  | _ => none

/-- A call as one of a script. It goes to one block at most, so that one label is enough. -/
def order : Call → Order
  | model name fields => .model name fields
  | enumeration name values => .enumeration name values
  | method owner name params returns => .method owner name params returns 0
  | act _ action => .act 0 action
  | enter _ scope => .enter 0 scope 0
  | branch _ condition => .branch 0 condition 0 0

/-- What the call of a script adds to a measure is what the call adds. -/
theorem measure_of_run {σ : Type} [Target σ] {measure : σ → Nat} {amount : Nat} {call : Call}
    (hadds : ∀ handles, Step.Adds measure amount (call.order.run handles)) {s s' : σ}
    {reply : Reply} (h : call.run s = .ok reply s') : measure s' = measure s + amount := by
  obtain ⟨handles, handles', hrun⟩ :
      ∃ handles handles', call.order.run handles s = .ok handles' s' := by
    refine ⟨fun _ => call.block?.getD .root, ?_⟩
    cases call <;>
    · obtain ⟨_, _, hcall, ⟨⟩⟩ := Step.bind_eq_ok_iff.mp h
      exact ⟨_, Step.bind_of_ok hcall⟩
  exact hadds handles hrun

end Call

/-- What can be asked of a file: a call, or its text. -/
inductive Request where
  | call (call : Call)
  | render
deriving DecidableEq

/-- Does what is asked of a file that is rendered in the given way. -/
def Request.serve {σ : Type} [Target σ] (render : Step σ String) : Request → Step σ Unit
  | call made => do
    let _ ← made.run
  | .render => do
    let _ ← render

/-- The file after a session of requests. -/
abbrev Request.session {σ : Type} [Target σ] (render : Step σ String) (requests : List Request)
    (s : σ) : σ :=
  Step.attempt (Request.serve render) requests s

/-- What a file answers to a request. -/
inductive Answer where
  | reply (reply : Reply)
  | text (text : String)
deriving DecidableEq

/-- The handles that an answer returns. -/
def Answer.handles : Answer → List Handle
  | reply returned => returned.handles
  | text _ => []

/-- A session in writing: its requests, each with the answer or the fault that it met with. -/
abbrev Transcript := List (Request × Except Fault Answer)

namespace Request

variable {σ : Type} [Target σ] (render : Step σ String)

/-- How a file answers a request. -/
def answer : Request → σ → Except Fault Answer
  | call made, s => Step.result (made.run s) |>.map .reply
  | .render, s => Step.result (render s) |>.map .text

/-- The transcript of a session. -/
def transcript : List Request → σ → Transcript
  | [], _ => []
  | request :: rest, s =>
    (request, request.answer render s) :: transcript rest (Step.state (request.serve render s))

theorem transcript_append (first second : List Request) (s : σ) :
    transcript render (first ++ second) s =
      transcript render first s ++ transcript render second (session render first s) := by
  induction first generalizing s with
  | nil => rfl
  | cons request rest ih => exact congrArg (_ :: ·) (ih _)

@[simp] theorem state_serve_call (made : Call) (s : σ) :
    Step.state ((call made).serve render s) = Step.state (made.run s) :=
  Step.state_bind_pure ..

@[simp] theorem state_serve_render (s : σ) :
    Step.state (Request.render.serve render s) = Step.state (render s) :=
  Step.state_bind_pure ..

theorem session_concat (past : List Request) (request : Request) (s : σ) :
    session render (past ++ [request]) s =
      Step.state (request.serve render (session render past s)) :=
  Step.attempt_append ..

theorem transcript_concat (past : List Request) (request : Request) (s : σ) :
    transcript render (past ++ [request]) s = transcript render past s ++
      [(request, request.answer render (session render past s))] :=
  transcript_append ..

variable {render}

/-- What holds at the beginning and is kept by every reply, every refusal and every rendering holds
throughout a session. -/
theorem session_induction {P : Transcript → σ → Prop} {start : σ} (hstart : P [] start)
    (hreply : ∀ past made reply s s', P past s → made.run s = .ok reply s' →
      P (past ++ [(.call made, .ok (.reply reply))]) s')
    (hrefused : ∀ past made fault s s', P past s → made.run s = .error fault s' →
      P (past ++ [(.call made, .error fault)]) s')
    (hrender : ∀ past s, P past s →
      P (past ++ [(.render, (Step.result (render s)).map .text)]) (Step.state (render s)))
    (requests : List Request) :
    P (transcript render requests start) (session render requests start) := by
  induction requests using List.reverseRecOn with
  | nil => exact hstart
  | append_singleton past request ih =>
    rw [transcript_concat, session_concat]
    cases request with
    | render =>
      rw [state_serve_render, answer]
      exact hrender _ _ ih
    | call made =>
      rw [state_serve_call, answer]
      cases hrun : made.run (session render past start) with
      | ok reply s' => exact hreply _ made reply _ s' ih hrun
      | error fault s' => exact hrefused _ made fault _ s' ih hrun

end Request

namespace Transcript

/-- The handles that were returned in a session. -/
def issued (transcript : Transcript) : List Handle :=
  transcript.flatMap fun entry =>
    match entry.2 with
    | .ok answer => answer.handles
    | .error _ => []

@[simp] theorem issued_nil : issued [] = [] := rfl

theorem issued_reply (past : Transcript) (made : Call) (reply : Reply) :
    issued (past ++ [(.call made, .ok (.reply reply))]) = issued past ++ reply.handles := by
  simp [issued, Answer.handles]

theorem issued_refused (past : Transcript) (made : Call) (fault : Fault) :
    issued (past ++ [(.call made, .error fault)]) = issued past := by
  simp [issued]

theorem issued_render (past : Transcript) (outcome : Except Fault String) :
    issued (past ++ [(.render, outcome.map .text)]) = issued past := by
  cases outcome <;> simp [issued, Answer.handles, Except.map]

end Transcript

/-- The test file after a session of procedures. -/
abbrev Procedure.session {σ : Type} [TestTarget σ] (procedures : List Procedure) (s : σ) : σ :=
  Step.attempt TestTarget.procedure procedures s

end Polyglot
