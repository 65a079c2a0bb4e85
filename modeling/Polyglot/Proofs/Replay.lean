import Polyglot.Proofs.Drawing.Runs
import Polyglot.Proofs.Printer
import Polyglot.Proofs.Script.OfOutline
import Polyglot.Proofs.Script.Recording

/-! # Replays as runs

A replay makes the calls of a depth-first script: the one that writes what the program unfolds to.
So everything that is known of runs holds of replays.
-/

namespace Polyglot

open Script

namespace Program

variable {σ : Type} [Target σ] {program : Program} {s s' : σ}

/-- A program that has been replayed unfolds without gaps. -/
theorem whole_of_replay (h : program.replay s = .ok () s') :
    ∀ part ∈ program.unfold, part.Whole := by
  rw [replay_eq_writeAll] at h
  exact Section.whole_of_writeAll h

/-- A replay makes the calls of the script that writes the unfolded program. -/
theorem replay_eq_run (h : ∀ part ∈ program.unfold, part.Whole) :
    (program.replay : Step σ Unit) =
      run noHandles (Section.script program.unfold) >>= fun _ => return () := by
  rw [replay_eq_writeAll, Section.writeAll_eq_run _ h]

theorem replay_eq_ok_iff : program.replay s = .ok () s' ↔
    (∀ part ∈ program.unfold, part.Whole) ∧
      ∃ handles, run noHandles (Section.script program.unfold) s = .ok handles s' := by
  constructor
  · intro h
    have hwhole := whole_of_replay h
    rw [replay_eq_run hwhole] at h
    obtain ⟨handles, _, hrun, ⟨⟩⟩ := Step.bind_eq_ok_iff.mp h
    exact ⟨hwhole, handles, hrun⟩
  · rintro ⟨hwhole, handles, hrun⟩
    rw [replay_eq_run hwhole, Step.bind_of_ok hrun]
    rfl

end Program

namespace Drafting

variable {style : Style} {σ : Type} [Target σ] (drafting : Drafting style σ) {script : List Order}
  {handles : Label → Handle} {file : σ}

/-- A script that runs can be recorded, and its recording can be replayed. -/
theorem replay_of_run (hscoped : Scoped script)
    (h : run noHandles script drafting.fresh = .ok handles file)
    (hroom : drafting.size file ≤ Handle.count) :
    ∃ handles' program file', run noHandles script ({} : Program) = .ok handles' program ∧
      program.unfold = sections script ∧ program.replay drafting.fresh = .ok () file' ∧
      drafting.size file' = drafting.size file := by
  have hopened : (opened script).length ≤ Handle.count := by
    have hsize := drafting.size_of_run h
    rw [Style.length_roles] at hsize
    omega
  obtain ⟨handles', program, hrecord, -⟩ := hscoped.run_kept noHandles
  have hunfold := (hscoped.recorded_of_run hopened hrecord).unfold_eq hscoped
  have hwhole : ∀ part ∈ program.unfold, part.Whole := hunfold ▸ whole_sections script
  have hsections : sections (Section.script program.unfold) = sections script :=
    (Section.sections_script hwhole).trans hunfold
  have hscoped' := Section.scoped_script program.unfold
  have hperm : (script.map (Order.clause (ownerOf script))).Perm
      ((Section.script program.unfold).map
        (Order.clause (ownerOf (Section.script program.unfold)))) :=
    hscoped.perm_map_clause.symm.trans (hsections ▸ hscoped'.perm_map_clause)
  obtain ⟨handles'', file', hrun, hsize⟩ := drafting.run_of_perm hscoped hscoped' hperm h hroom
  exact ⟨handles', program, file', hrecord, hunfold,
    Program.replay_eq_ok_iff.mpr ⟨hwhole, handles'', hrun⟩, hsize⟩

/-- Files are rendered as the declarations of their script are printed. -/
def Renders (render : Step σ String) (print : List (Section Handle) → String) : Prop :=
  ∀ ⦃script handles file⦄, Scoped script →
    run noHandles script drafting.fresh = .ok handles file → drafting.size file ≤ Handle.count →
    Step.result (render file) = Section.rendered print (sections script)

variable {drafting} {render : Step σ String} {print : List (Section Handle) → String}
  {program : Program}

/-- Then files into which a program was replayed are rendered as the program is printed. -/
theorem Renders.of_replay (hrenders : drafting.Renders render print)
    (h : program.replay drafting.fresh = .ok () file) (hroom : drafting.size file ≤ Handle.count) :
    Step.result (render file) = Section.rendered print program.unfold := by
  obtain ⟨hwhole, _, hrun⟩ := Program.replay_eq_ok_iff.mp h
  rw [hrenders (Section.scoped_script _) hrun hroom, Section.sections_script hwhole]

end Drafting

end Polyglot
