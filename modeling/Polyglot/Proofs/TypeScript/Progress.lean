import Polyglot.Proofs.TypeScript.Calls

/-! # Progress of TypeScript files

A scoped script whose clauses can all be spelled is carried to its end. That is known of scripts
for which there are enough handles; here it is enough that the handles have not run out in the file
that the run leaves, wherever it ends.
-/

namespace Polyglot.TypeScript

open Script Style

variable {order : Order} {handles : Label → Handle} {file : File}

/-- The call that an order makes. -/
def callOf (handles : Label → Handle) : Order → Call
  | .model name fields => .model name fields
  | .enumeration name values => .enumeration name values
  | .method owner name params returns _ => .method owner name params returns
  | .act block action => .act (handles block) action
  | .enter block scope _ => .enter (handles block) scope
  | .branch block condition _ _ => .branch (handles block) condition

theorem state_run (handles : Label → Handle) (order : Order) (file : File) :
    Step.state (order.run handles file) = Step.state ((callOf handles order).run file) := by
  cases order <;> simp only [Order.run, callOf, Call.run, Step.state_bind_pure]

/-- A clause that can be spelled is written, if its block belongs to a method. -/
theorem run_of_spelled (hpos : 0 < file.document.blocks.size) {owners : Label → String}
    {spelled : String × List String} (hspelled : phrase (order.clause owners) = .ok spelled)
    (hmethod : ∀ block ∈ order.block?, InMethod file.document (handles block)) :
    ∃ handles' file', order.run handles file = .ok handles' file' := by
  cases order with
  | model name fields =>
    cases htexts : paramTexts fields with
    | error fault =>
      rw [Order.clause, phrase, htexts] at hspelled
      cases hspelled
    | ok texts =>
      obtain ⟨file', hrun, -⟩ := model_of_spelled hpos name htexts
      exact ⟨_, file', Step.bind_of_ok hrun⟩
  | enumeration name values =>
    obtain ⟨file', hrun, -⟩ := enumeration_of_pos hpos name values
    exact ⟨_, file', Step.bind_of_ok hrun⟩
  | method owner name params returns body =>
    obtain ⟨_, file', hrun, -⟩ := method_of_spelled hpos owner name (line_of_spelled hspelled)
    exact ⟨_, file', Step.bind_of_ok hrun⟩
  | act block action =>
    obtain ⟨file', hrun, -⟩ := act_of_spelled (hmethod block rfl) (line_of_spelled hspelled)
    exact ⟨_, file', Step.bind_of_ok hrun⟩
  | enter block scope body =>
    obtain ⟨_, file', hrun, -⟩ := enter_of_spelled (hmethod block rfl) (line_of_spelled hspelled)
    exact ⟨_, file', Step.bind_of_ok hrun⟩
  | branch block condition thenBody elseBody =>
    obtain ⟨_, file', hrun, -⟩ := branch_of_spelled (hmethod block rfl) (line_of_spelled hspelled)
    exact ⟨_, file', Step.bind_of_ok hrun⟩

/-- After a run, every block that was opened belongs to a method. -/
theorem Drafted.inMethod {script : List Order} (h : Drafted script script handles file)
    (hscoped : Scoped script) (hroom : (style.roles script).length ≤ Handle.count) {label : Label}
    (hlabel : label ∈ opened script) : InMethod file.document (handles label) := by
  have hfind := h.drawn.find hscoped hroom (List.append_nil script).symm
    (body_mem_roles.mpr hlabel)
  rw [← h.drawn.handles label hlabel] at hfind
  exact ⟨_, _, hfind, rfl⟩

/-- A script whose clauses can be spelled runs, if there are handles for all blocks of the file
that the run leaves. -/
theorem run_of_phrase {script : List Order} (hscoped : Scoped script) {owners : Label → String}
    (hspelled : ∀ order ∈ script, ∃ spelled, phrase (order.clause owners) = .ok spelled)
    (hroom : (Step.state (run noHandles script ({} : File))).document.blocks.size ≤ Handle.count) :
    ∃ handles file, run noHandles script ({} : File) = .ok handles file := by
  induction script using List.reverseRecOn with
  | nil => exact ⟨noHandles, {}, rfl⟩
  | append_singleton past order ih =>
    obtain ⟨hpast, ⟨hblock, -⟩, -⟩ := scopedFrom_append.mp hscoped
    have hpastSpelled : ∀ other ∈ past, ∃ spelled, phrase (other.clause owners) = .ok spelled :=
      fun other hother => hspelled other (List.mem_append_left _ hother)
    rw [run_append] at hroom ⊢
    cases hrun : run noHandles past ({} : File) with
    | error fault file =>
      -- The file is the one that the whole run leaves, so the shorter script would have run.
      rw [Step.bind_of_error hrun] at hroom
      obtain ⟨_, _, hdone⟩ := ih hpast hpastSpelled (by rw [hrun]; exact hroom)
      rw [hrun] at hdone
      cases hdone
    | ok handles file =>
      rw [Step.bind_of_ok hrun] at hroom ⊢
      simp only [run, bind_pure] at hroom ⊢
      rw [state_run] at hroom
      have hsize := drafting.size_of_run hrun
      change file.document.blocks.size = _ at hsize
      have hpos : 0 < file.document.blocks.size := by
        rw [hsize, length_roles]
        exact Nat.succ_pos _
      have hpastRoom : (style.roles past).length ≤ Handle.count := by
        rw [← hsize]
        exact Nat.le_trans (size_le_of_run hpos (callOf handles order)) hroom
      obtain ⟨hdrafted, -⟩ := drafting.holds_of_run hpast hpastRoom hrun
      obtain ⟨spelled, hspelled⟩ := hspelled order (by simp)
      apply run_of_spelled hpos hspelled
      intro block hmem
      apply Drafted.inMethod hdrafted hpast hpastRoom
      simpa using hblock block hmem

end Polyglot.TypeScript
