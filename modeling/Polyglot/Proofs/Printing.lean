import Polyglot.Proofs.Go.Rendering
import Polyglot.Proofs.TypeScript.Rendering
import Polyglot.Proofs.Unfolding

/-! # Rendering is printing

The text of a file into which a program was replayed is what a printer makes of the program's
tree. The printers go over the tree once, declaration by declaration and statement by statement;
they know of no blocks, and nothing is moved.
-/

namespace Polyglot

/-- A file that can be rendered shows the printed declarations. -/
theorem Section.eq_print_of_rendered {ω : Type} {print : List (Section ω) → String}
    {parts : List (Section ω)} {text : String} (h : .ok text = rendered print parts) :
    text = print parts := by
  rw [rendered] at h
  cases hstray : firstStray? parts with
  | none =>
    rw [hstray] at h
    exact Except.ok.inj h
  | some stray =>
    rw [hstray] at h
    cases h

/-- An acyclic program has one tree, and files show that tree as it is printed. -/
theorem Program.render_eq_print {program : Program} (hacyclic : program.Acyclic) :
    (∃! tree, program.IsUnfolding tree) ∧ ∀ tree, program.IsUnfolding tree →
      (∀ file file' text, program.replay ({} : TypeScript.File) = .ok () file →
        file.document.blocks.size ≤ Handle.count → TypeScript.File.render file = .ok text file' →
        text = TypeScript.print (program.outline tree)) ∧
      ∀ package file file' text, program.replay ({ package } : Go.File) = .ok () file →
        file.document.blocks.size ≤ Handle.count → Go.File.render file = .ok text file' →
        text = Go.print package (program.outline tree) ∧
        (Go.packagesOf ((program.outline tree).flatMap Section.clauses)).toList.Pairwise
          fun first second => first.path < second.path := by
  refine ⟨⟨_, hacyclic.isUnfolding, fun tree => hacyclic.eq_unfoldBlock⟩, ?_⟩
  intro tree htree
  have hunfold : program.unfold = program.outline tree := by
    rw [unfold_eq_outline, ← hacyclic.eq_unfoldBlock htree]
  refine ⟨?_, ?_⟩
  · intro file file' text hreplay hroom hrender
    have hrendered := TypeScript.renders.of_replay hreplay hroom
    rw [hrender, hunfold] at hrendered
    exact Section.eq_print_of_rendered hrendered
  · intro package file file' text hreplay hroom hrender
    have hrendered := (Go.renders package).of_replay hreplay hroom
    rw [hrender, hunfold] at hrendered
    exact ⟨Section.eq_print_of_rendered hrendered, Imports.sorted _⟩

/-- A program in which both methods have the same body, and both branches of that the same
statements. -/
def sharing : Program where
  decls := #[
    .method { model := "Till", name := "open", params := [], returns := none, body := ⟨1⟩ },
    .model "Till" [], .enumeration "Mode" ["idle", "busy"],
    .method { model := "Till", name := "close", params := [], returns := none, body := ⟨1⟩ },
    .model "Till" [⟨"total", .primitive .int⟩]]
  blocks := #[#[.act (.declare "n" (.intToText (.int 1)))], #[.branch (.bool true) ⟨0⟩ ⟨0⟩]]

theorem render_eq_print_sharing : sharing.Acyclic ∧ ∃ tree, sharing.IsUnfolding tree ∧
    (∃ file file' text, sharing.replay ({} : TypeScript.File) = .ok () file ∧
      TypeScript.File.render file = .ok text file' ∧
      text = TypeScript.print (sharing.outline tree)) ∧
    ∃ file file' text, sharing.replay ({ package := "till" } : Go.File) = .ok () file ∧
      Go.File.render file = .ok text file' ∧ text = Go.print "till" (sharing.outline tree) := by
  have hacyclic : sharing.Acyclic := Program.acyclic_of_rank (2 - ·) (by decide)
  obtain ⟨⟨tree, htree, -⟩, hprint⟩ := Program.render_eq_print hacyclic
  obtain ⟨hTypeScript, hGo⟩ := hprint tree htree
  refine ⟨hacyclic, tree, htree, ?_, ?_⟩
  · obtain ⟨_, file, hreplay, htest⟩ := Step.exists_of_leaves (by decide +kernel :
      Step.leaves (fun file => decide (file.document.blocks.size ≤ Handle.count) &&
        Step.leaves (fun _ => true) (TypeScript.File.render file))
        (sharing.replay ({} : TypeScript.File)) = true)
    rw [Bool.and_eq_true, decide_eq_true_iff] at htest
    obtain ⟨text, file', hrender, -⟩ := Step.exists_of_leaves htest.2
    exact ⟨file, file', text, hreplay, hrender,
      hTypeScript file file' text hreplay htest.1 hrender⟩
  · obtain ⟨_, file, hreplay, htest⟩ := Step.exists_of_leaves (by decide +kernel :
      Step.leaves (fun file => decide (file.document.blocks.size ≤ Handle.count) &&
        Step.leaves (fun _ => true) (Go.File.render file))
        (sharing.replay ({ package := "till" } : Go.File)) = true)
    rw [Bool.and_eq_true, decide_eq_true_iff] at htest
    obtain ⟨text, file', hrender, -⟩ := Step.exists_of_leaves htest.2
    exact ⟨file, file', text, hreplay, hrender,
      (hGo "till" file file' text hreplay htest.1 hrender).1⟩

end Polyglot
