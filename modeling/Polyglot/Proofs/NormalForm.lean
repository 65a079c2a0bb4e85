import Polyglot.Proofs.Replay
import Polyglot.Proofs.Script.Keeping
import Polyglot.Proofs.Step

/-! # Replay as a normal form

Replaying a program into an empty program numbers its blocks in the order in which they are
written, copies those that are referred to more than once, and drops those that are not referred
to. Nobody to whom the program is replayed can tell the difference.
-/

namespace Polyglot.Program

open Script

variable {program normal : Program}

/-- The replayed program unfolds to the same tree. -/
theorem unfold_eq_of_replay (h : program.replay ({} : Program) = .ok () normal)
    (hroom : normal.blocks.size ≤ Handle.count) : normal.unfold = program.unfold := by
  obtain ⟨hwhole, handles, hrun⟩ := replay_eq_ok_iff.mp h
  have hscoped := Section.scoped_script program.unfold
  have hcount : (opened (Section.script program.unfold)).length ≤ Handle.count := by
    rw [← (hscoped.kept_of_run hrun).size]
    exact hroom
  rw [(hscoped.recorded_of_run hcount hrun).unfold_eq hscoped, Section.sections_script hwhole]

/-- Programs with the same tree cannot be told apart by replaying them. -/
theorem replay_congr {first second : Program} (h : first.unfold = second.unfold) {σ : Type}
    [Target σ] : (first.replay : Step σ Unit) = second.replay := by
  rw [replay_eq_writeAll, replay_eq_writeAll, h]

/-- Recording a script depth-first and replaying the recording come to the same. -/
theorem replay_eq_self {script : List Order} {handles : Label → Handle} (hscoped : Scoped script)
    (hdepth : DepthFirst script) (hrun : run noHandles script ({} : Program) = .ok handles program)
    (hroom : program.blocks.size ≤ Handle.count) :
    program.replay ({} : Program) = .ok () program := by
  have hcount : (opened script).length ≤ Handle.count := by
    rw [← (hscoped.kept_of_run hrun).size]
    exact hroom
  rw [replay_eq_writeAll, (hscoped.recorded_of_run hcount hrun).unfold_eq hscoped,
    hdepth.writeAll_eq_run Fault.invalidBlock hscoped noHandles, Step.bind_of_ok hrun]
  rfl

/-- Replaying into an empty program gives a normal form: replaying that again changes nothing, it
does to every target what the program does, and a program that was recorded depth-first is its own
normal form. -/
theorem replay_normal (h : program.replay ({} : Program) = .ok () normal)
    (hroom : normal.blocks.size ≤ Handle.count) :
    normal.replay ({} : Program) = .ok () normal ∧
    (∀ (σ : Type) [Target σ] (target : σ), program.replay target = normal.replay target) ∧
    ∀ script handles, Scoped script → DepthFirst script →
      run noHandles script ({} : Program) = .ok handles program → normal = program := by
  have hunfold := unfold_eq_of_replay h hroom
  refine ⟨?_, ?_, ?_⟩
  · rw [replay_congr hunfold, h]
  · intro σ _ target
    rw [replay_congr hunfold]
  · intro script handles hscoped hdepth hrun
    obtain ⟨hwhole, _, hrun'⟩ := replay_eq_ok_iff.mp h
    -- If handles had run out while the program was recorded, there would be none left to replay it.
    have hsize : program.blocks.size ≤ normal.blocks.size := by
      rw [((Section.scoped_script program.unfold).kept_of_run hrun').size]
      exact (hscoped.kept_of_run hrun).size_le hscoped hwhole
    rw [replay_eq_self hscoped hdepth hrun (Nat.le_trans hsize hroom)] at h
    cases h
    rfl

/-- A program with a block that is used four times, and one that is not used. -/
def tangled : Program where
  decls := #[
    .method { model := "Till", name := "open", params := [], returns := none, body := ⟨2⟩ },
    .method { model := "Till", name := "close", params := [], returns := none, body := ⟨2⟩ }]
  blocks := #[#[.act (.giveBack .null)], #[.act (.declare "n" (.int 1))],
    #[.branch (.bool true) ⟨0⟩ ⟨0⟩]]

/-- A method with scopes in both branches of a choice. -/
def nested : List (Section Empty) :=
  [.model "Till" [], .method "Till" "open" [] none
    [.branch (.bool true) [.enter (.ifThen (.bool false)) [.act (.giveBack .null)]]
      [.enter (.ifThen (.bool true)) []], .act (.giveBack (.int 1))]]

theorem replay_normal_tangled :
    (∃ normal, tangled.replay ({} : Program) = .ok () normal ∧ normal ≠ tangled ∧
      normal.replay ({} : Program) = .ok () normal ∧
      ∀ target : Program, tangled.replay target = normal.replay target) ∧
    ∃ handles program normal,
      run noHandles (Section.script nested) ({} : Program) = .ok handles program ∧
      program.replay ({} : Program) = .ok () normal ∧ normal = program := by
  constructor
  · obtain ⟨_, normal, hreplay, htest⟩ := Step.exists_of_leaves (by decide +kernel :
      Step.leaves (fun normal : Program => decide (normal.blocks.size ≤ Handle.count) &&
        decide (normal ≠ tangled)) (tangled.replay ({} : Program)) = true)
    rw [Bool.and_eq_true, decide_eq_true_iff, decide_eq_true_iff] at htest
    obtain ⟨hself, hsame, -⟩ := replay_normal hreplay htest.1
    exact ⟨normal, hreplay, htest.2, hself, hsame Program⟩
  · obtain ⟨handles, program, hrun, htest⟩ := Step.exists_of_leaves (by decide +kernel :
      Step.leaves (fun program : Program =>
        Step.leaves (fun normal : Program => decide (normal.blocks.size ≤ Handle.count))
          (program.replay ({} : Program)))
        (run noHandles (Section.script nested) ({} : Program)) = true)
    obtain ⟨_, normal, hreplay, hroom⟩ := Step.exists_of_leaves htest
    obtain ⟨-, -, hself⟩ := replay_normal hreplay (of_decide_eq_true hroom)
    exact ⟨handles, program, normal, hrun, hreplay,
      hself _ handles (Section.scoped_script _) (Section.depthFirst_script _) hrun⟩

end Polyglot.Program
