import Polyglot.Proofs.Script.Recording
import Polyglot.Proofs.TestFile.Jest
import Polyglot.Proofs.TypeScript.Calls

/-! # Refused calls

What a refused call leaves behind. TypeScript files and programs are left exactly as they were. A
Jest file may be left with a block that holds the first lines of a test, but nothing refers to that
block, now or later, so it never shows.
-/

namespace Polyglot

namespace Program

variable {program : Program} {block : Handle}

/-- A step that looks for its block first, and succeeds if there is one. -/
theorem ends_check {α : Type} {next : Unit → Step Program α}
    (h : block.index < program.blocks.size →
      ∃ a program', (check block >>= next) program = .ok a program') :
    Step.Ends Eq (fun _ _ => True) program ((check block >>= next) program) := by
  by_cases hlt : block.index < program.blocks.size
  · obtain ⟨a, program', hrun⟩ := h hlt
    rw [hrun]
    trivial
  · rw [Step.bind_of_error (check_of_not_lt hlt)]
    rfl

/-- A call that a program refuses leaves it as it was. -/
theorem ends_run (program : Program) (call : Call) :
    Step.Ends Eq (fun _ _ => True) program (call.run program) := by
  cases call with
  | model name fields => trivial
  | enumeration name values => trivial
  | method owner name params returns => trivial
  | act block action =>
    apply Step.Ends.bind_pure
    apply ends_check
    intro hlt
    exact ⟨_, _, record_of_lt (.act action) hlt⟩
  | enter block scope =>
    apply Step.Ends.bind_pure
    apply ends_check
    intro hlt
    exact ⟨_, _, enter_of_lt scope hlt⟩
  | branch block condition =>
    apply Step.Ends.bind_pure
    apply ends_check
    intro hlt
    exact ⟨_, _, branch_of_lt condition hlt⟩

end Program

/-- Refused calls leave no trace. After any session with a TypeScript file, a call that is refused
leaves the file as it was; so does a call that a program refuses. A procedure that a Jest file
refuses, even after some of its lines were written, makes no difference to the text of the file,
however the session goes on. -/
theorem rejected_without_trace :
    (∀ (requests : List Request) (call : Call) (fault : Fault) (file file' : TypeScript.File),
      file = Request.session TypeScript.File.render requests {} →
      call.run file = .error fault file' → file' = file) ∧
    (∀ (program program' : Program) (call : Call) (fault : Fault),
      call.run program = .error fault program' → program' = program) ∧
    ∀ (module : String) (before after : List Procedure) (procedure : Procedure) (fault : Fault)
      (file file' : Jest.File), file = Procedure.session before { module } →
      TestTarget.procedure procedure file = .error fault file' →
      (Procedure.session after file').document.blocks.size ≤ Handle.count →
      (Procedure.session after file').render = (Procedure.session after file).render := by
  refine ⟨?_, ?_, ?_⟩
  · rintro requests call fault _ file' rfl h
    have hclean := TypeScript.clean_run (TypeScript.pos_of_session requests) call
    rw [h] at hclean
    exact hclean.symm
  · intro program program' call fault h
    have hends := program.ends_run call
    rw [h] at hends
    exact hends.symm
  · rintro module before after procedure fault _ file' rfl h hroom
    exact Jest.render_of_rejected module before after h hroom

/-- A test whose second check cannot be spelled. -/
def unspeakableTest : Procedure where
  name := "openedTwice"
  method := "open"
  inputs := [.int 2]
  output := some (.bool true)
  sideEffects := [⟨"count", .int 1⟩,
    ⟨"notes", .map (.pointer (.primitive .bool)) (.primitive .int) []⟩]

/-- A test with nothing to check. -/
def plainTest : Procedure where
  name := "closed"
  method := "close"
  inputs := []
  output := none
  sideEffects := []

/-- A session in which a method is declared, rendering fails, and the model follows. -/
def tillSession : List Request :=
  [.call (.method "Till" "open" [] none), .render, .call (.model "Till" []), .render]

theorem rejected_without_trace_samples :
    (∃ fault file, file ≠ {} ∧ (Call.act .root (.giveBack .null)).run
        (Request.session TypeScript.File.render tillSession {}) = .error fault file ∧
      file = Request.session TypeScript.File.render tillSession {}) ∧
    (∃ fault program, (Call.enter ⟨3⟩ (.ifThen (.bool true))).run ({ blocks := #[#[]] } : Program) =
      .error fault program ∧ program = { blocks := #[#[]] }) ∧
    ∃ fault file, file.document.blocks.size = 3 ∧
      TestTarget.procedure unspeakableTest
        (Procedure.session [plainTest] ({ module := "./till" } : Jest.File)) = .error fault file ∧
      (Procedure.session [plainTest] file).render =
        (Procedure.session [plainTest] (Procedure.session [plainTest]
          ({ module := "./till" } : Jest.File))).render := by
  obtain ⟨htypeScript, hprogram, hjest⟩ := rejected_without_trace
  refine ⟨?_, ?_, ?_⟩
  · obtain ⟨fault, file, hstop, htest⟩ := Step.exists_of_stops (by decide +kernel :
      Step.stops (fun file => file ≠ {}) ((Call.act .root (.giveBack .null)).run
        (Request.session TypeScript.File.render tillSession {})) = true)
    exact ⟨fault, file, of_decide_eq_true htest, hstop, htypeScript _ _ fault _ file rfl hstop⟩
  · exact ⟨_, _, rfl, hprogram { blocks := #[#[]] } _ (.enter ⟨3⟩ (.ifThen (.bool true))) _ rfl⟩
  · obtain ⟨fault, file, hstop, htest⟩ := Step.exists_of_stops (by decide +kernel :
      Step.stops (fun file => file.document.blocks.size = 3 ∧
          (Procedure.session [plainTest] file).document.blocks.size ≤ Handle.count)
        (TestTarget.procedure unspeakableTest
          (Procedure.session [plainTest] ({ module := "./till" } : Jest.File))) = true)
    obtain ⟨hsize, hroom⟩ := of_decide_eq_true htest
    exact ⟨fault, file, hsize, hstop, hjest _ _ _ _ fault _ file rfl hstop hroom⟩

end Polyglot
