import Polyglot.Proofs.Go.Rendering
import Polyglot.Proofs.TypeScript.Rendering

/-! # Recording is transparent

Calls can be made on a file directly, or recorded in a program that is replayed into a file later.
A replay makes the calls in another order and the blocks get other handles, but the rendered text
is the same.
-/

namespace Polyglot

open Script

/-- The same text, or the same method without a model. -/
def SameOutcome (first second : Except Fault String) : Prop :=
  (∃ text, first = .ok text ∧ second = .ok text) ∨
    ∃ model method, first = .error (.brokenReference model method) ∧
      second = .error (.brokenReference model method)

theorem Section.sameOutcome_rendered {ω : Type} {print : List (Section ω) → String}
    {parts : List (Section ω)} {first second : Except Fault String}
    (hfirst : first = rendered print parts) (hsecond : second = rendered print parts) :
    SameOutcome first second := by
  rw [hfirst, hsecond, rendered]
  cases firstStray? parts with
  | none => exact .inl ⟨_, rfl, rfl⟩
  | some stray => exact .inr ⟨_, _, rfl, rfl⟩

/-- A script that runs can be recorded and replayed, and that makes no difference. -/
theorem Drafting.Renders.sameOutcome_of_run {style : Style} {σ : Type} [Target σ]
    {drafting : Drafting style σ} {render : Step σ String}
    {print : List (Section Handle) → String} {script : List Order} {handles : Label → Handle}
    {file : σ} (hrenders : drafting.Renders render print) (hscoped : Scoped script)
    (hrun : run noHandles script drafting.fresh = .ok handles file)
    (hroom : drafting.size file ≤ Handle.count) :
    ∃ handles' program file', run noHandles script ({} : Program) = .ok handles' program ∧
      program.replay drafting.fresh = .ok () file' ∧
      SameOutcome (Step.result (render file)) (Step.result (render file')) := by
  obtain ⟨handles', program, file', hrecord, hunfold, hreplay, hsize⟩ :=
    drafting.replay_of_run hscoped hrun hroom
  have hdirect := hrenders hscoped hrun hroom
  have hreplayed := hrenders.of_replay hreplay (Nat.le_trans (Nat.le_of_eq hsize) hroom)
  rw [hunfold] at hreplayed
  exact ⟨handles', program, file', hrecord, hreplay,
    Section.sameOutcome_rendered hdirect hreplayed⟩

/-- Whatever a script writes to a file, its recording writes there as well. -/
theorem sameOutcome_replay_of_run {script : List Order} (hscoped : Scoped script) :
    (∀ handles file, run noHandles script ({} : TypeScript.File) = .ok handles file →
      file.document.blocks.size ≤ Handle.count →
      ∃ handles' program file', run noHandles script ({} : Program) = .ok handles' program ∧
        program.replay ({} : TypeScript.File) = .ok () file' ∧
        SameOutcome (Step.result (TypeScript.File.render file))
          (Step.result (TypeScript.File.render file'))) ∧
    (∀ package handles file, run noHandles script ({ package } : Go.File) = .ok handles file →
      file.document.blocks.size ≤ Handle.count →
      ∃ handles' program file', run noHandles script ({} : Program) = .ok handles' program ∧
        program.replay ({ package } : Go.File) = .ok () file' ∧
        SameOutcome (Step.result (Go.File.render file)) (Step.result (Go.File.render file'))) := by
  constructor
  · intro handles file hrun hroom
    exact TypeScript.renders.sameOutcome_of_run hscoped hrun hroom
  · intro package handles file hrun hroom
    exact (Go.renders package).sameOutcome_of_run hscoped hrun hroom

/-- Two methods whose bodies are written in turns, before their models are declared. -/
def interleaved : List Order :=
  [.method "Shop" "open" [] none 0, .method "Till" "count" [] (some (.primitive .int)) 1,
    .branch 0 (.bool true) 2 3, .act 1 (.declare "sum" (.int 0)), .act 3 (.giveBack .null),
    .model "Till" [⟨"total", .primitive .int⟩], .enter 1 (.ifThen (.bool false)) 4,
    .act 4 (.giveBack (.binding "sum")), .act 2 (.declare "ready" (.bool true)),
    .model "Shop" [], .act 1 (.giveBack (.int 1))]

theorem sameOutcome_replay_interleaved : Scoped interleaved ∧
    (∃ handles file handles' program file',
      run noHandles interleaved ({} : TypeScript.File) = .ok handles file ∧
      run noHandles interleaved ({} : Program) = .ok handles' program ∧
      program.replay ({} : TypeScript.File) = .ok () file' ∧
      SameOutcome (Step.result (TypeScript.File.render file))
        (Step.result (TypeScript.File.render file'))) ∧
    ∃ handles file handles' program file',
      run noHandles interleaved ({ package := "shop" } : Go.File) = .ok handles file ∧
      run noHandles interleaved ({} : Program) = .ok handles' program ∧
      program.replay ({ package := "shop" } : Go.File) = .ok () file' ∧
      SameOutcome (Step.result (Go.File.render file)) (Step.result (Go.File.render file')) := by
  have hscoped : Scoped interleaved := by decide
  obtain ⟨hTypeScript, hGo⟩ := sameOutcome_replay_of_run hscoped
  refine ⟨hscoped, ?_, ?_⟩
  · obtain ⟨handles, file, hrun, hroom⟩ := Step.exists_of_leaves (by decide +kernel :
      Step.leaves (fun file => decide (file.document.blocks.size ≤ Handle.count))
        (run noHandles interleaved ({} : TypeScript.File)) = true)
    obtain ⟨handles', program, file', hsame⟩ :=
      hTypeScript handles file hrun (of_decide_eq_true hroom)
    exact ⟨handles, file, handles', program, file', hrun, hsame⟩
  · obtain ⟨handles, file, hrun, hroom⟩ := Step.exists_of_leaves (by decide +kernel :
      Step.leaves (fun file => decide (file.document.blocks.size ≤ Handle.count))
        (run noHandles interleaved ({ package := "shop" } : Go.File)) = true)
    obtain ⟨handles', program, file', hsame⟩ :=
      hGo "shop" handles file hrun (of_decide_eq_true hroom)
    exact ⟨handles, file, handles', program, file', hrun, hsame⟩

end Polyglot
