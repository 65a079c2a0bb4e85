import Polyglot.File.Go
import Polyglot.File.TypeScript
import Polyglot.Proofs.Replay
import Polyglot.Suite.Compile

/-! # Recorded suites

The program of a suite can be written to a target directly, or recorded first and replayed. The
target sees the same calls either way, up to the first one that it refuses, wherever in the bodies
that is.
-/

namespace Polyglot

open Script

namespace Outline

mutual
/-- Where gaps have no reason, there are none. -/
theorem whole_of_empty : (outline : Outline Empty) → outline.Whole
  | gap reason => reason.elim
  | act _ => trivial
  | enter _ body => wholeAll_of_empty body
  | branch _ thenBody elseBody => ⟨wholeAll_of_empty thenBody, wholeAll_of_empty elseBody⟩

theorem wholeAll_of_empty : (outlines : List (Outline Empty)) → WholeAll outlines
  | [] => trivial
  | first :: rest => ⟨whole_of_empty first, wholeAll_of_empty rest⟩
end

end Outline

theorem Section.whole_of_empty (part : Section Empty) : part.Whole := by
  cases part with
  | model _ _ => trivial
  | enumeration _ _ => trivial
  | method _ _ _ _ body => exact Outline.wholeAll_of_empty body

/-- Declarations without gaps can be recorded, and to replay the recording is to write them. -/
theorem Section.exists_recording (parts : List (Section Empty)) :
    ∃ recording, writeAll Empty.elim parts ({} : Program) = .ok () recording ∧
      (recording.blocks.size ≤ Handle.count → ∀ (σ : Type) [Target σ],
        (recording.replay : Step σ Unit) = writeAll Empty.elim parts) := by
  have hscoped := scoped_script parts
  have hdirect : ∀ (σ : Type) [Target σ], (writeAll Empty.elim parts : Step σ Unit) =
      run noHandles (script parts) >>= fun _ => return () :=
    fun σ _ => writeAll_eq_run _ fun part _ => part.whole_of_empty
  obtain ⟨handles, recording, hrun, hkept⟩ := hscoped.run_kept noHandles
  refine ⟨recording, ?_, ?_⟩
  · rw [hdirect Program, Step.bind_of_ok hrun]
    rfl
  · intro hroom σ _
    have hunfold : recording.unfold = sections (script parts) :=
      (hscoped.recorded_of_run (hkept.size ▸ hroom) hrun).unfold_eq hscoped
    rw [Program.replay_eq_writeAll, hunfold, hdirect σ,
      (depthFirst_script parts).writeAll_eq_run Fault.invalidBlock hscoped noHandles]

namespace Suite

theorem compileProgram_of_valid {suite : Suite} (hvalid : suite.check = .ok ())
    (fields : List Field) {σ : Type} [Target σ] :
    (suite.compileProgram fields : Step σ Unit) =
      Section.writeAll Empty.elim (suite.outline fields) := by
  rw [compileProgram, hvalid]
  rfl

/-- A valid suite can be recorded. To replay the recording into a target, in whatever state it is,
has the result of compiling the suite to it and leaves it in the same state, also if the target
refuses a declaration or a statement on the way. -/
theorem replay_recording {suite : Suite} (hvalid : suite.check = .ok ()) (fields : List Field) :
    ∃ recording, suite.compileProgram fields ({} : Program) = .ok () recording ∧
      (recording.blocks.size ≤ Handle.count → ∀ (σ : Type) [Target σ] (target : σ),
        recording.replay target = suite.compileProgram fields target) := by
  obtain ⟨recording, hrecord, hreplay⟩ := Section.exists_recording (suite.outline fields)
  refine ⟨recording, ?_, ?_⟩
  · rw [compileProgram_of_valid hvalid, hrecord]
  · intro hroom σ _ target
    rw [compileProgram_of_valid hvalid, hreplay hroom σ]

/-- A suite whose second case has a statement that no target spells, deep in the second branch of a
choice and before further statements. -/
def unspeakable : Suite where
  cases := [
    { name := "open", parameters := [⟨"by", .primitive .int⟩],
      body := [.act (.declare "n" (.intToText (.binding "by")))] },
    { name := "close",
      body := [.branch (.bool true) [.act (.giveBack .null)]
        [.enter (.forEach (.binding "notes") "i" "")
          [.act (.giveBack (.map (.pointer (.primitive .bool)) (.primitive .int) []))],
          .act (.giveBack .null)]] }]

theorem replay_recording_unspeakable : unspeakable.check = .ok () ∧
    ∃ recording, unspeakable.compileProgram [] ({} : Program) = .ok () recording ∧
      (∃ fault file, file ≠ {} ∧
        unspeakable.compileProgram [] ({} : TypeScript.File) = .error fault file ∧
        recording.replay ({} : TypeScript.File) = .error fault file) ∧
      ∃ fault file, file.methods = [("TestModel", "open"), ("TestModel", "close")] ∧
        unspeakable.compileProgram [] ({ package := "till" } : Go.File) = .error fault file ∧
        recording.replay ({ package := "till" } : Go.File) = .error fault file := by
  have hvalid : unspeakable.check = .ok () := rfl
  obtain ⟨recording, hrecord, hreplay⟩ := replay_recording hvalid []
  have hroom : Step.leaves (fun program : Program => program.blocks.size ≤ Handle.count)
      (unspeakable.compileProgram [] ({} : Program)) = true := by decide +kernel
  rw [hrecord] at hroom
  have hsame := hreplay (of_decide_eq_true hroom)
  refine ⟨hvalid, recording, hrecord, ?_, ?_⟩
  · obtain ⟨fault, file, hcompile, htest⟩ := Step.exists_of_stops (by decide +kernel :
      Step.stops (fun file => file ≠ {})
        (unspeakable.compileProgram [] ({} : TypeScript.File)) = true)
    exact ⟨fault, file, of_decide_eq_true htest, hcompile, (hsame _ _).trans hcompile⟩
  · obtain ⟨fault, file, hcompile, htest⟩ := Step.exists_of_stops (by decide +kernel :
      Step.stops (fun file => file.methods = [("TestModel", "open"), ("TestModel", "close")])
        (unspeakable.compileProgram [] ({ package := "till" } : Go.File)) = true)
    exact ⟨fault, file, of_decide_eq_true htest, hcompile, (hsame _ _).trans hcompile⟩

end Suite

end Polyglot
