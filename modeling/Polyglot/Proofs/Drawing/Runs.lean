import Polyglot.Proofs.Drawing.Basic

/-! # Runs of a language

What holds of every language whose files are drawn in a style. A call is accepted or not depending
on its clause alone; if it is, the file holds what the script says so far. So a script runs if and
only if all of its clauses are accepted, and the order of its calls does not matter for that.
-/

namespace Polyglot

open Script

/-- A kind of file that is drawn in a style: which clauses it accepts, and what it holds after the
first calls of a script. -/
structure Drafting (style : Style) (σ : Type) [Target σ] where
  /-- The file before any call. -/
  fresh : σ
  /-- The number of blocks in a file. -/
  size : σ → Nat
  /-- The number of blocks that a clause takes. -/
  width : Clause → Nat
  Accepts : Clause → Prop
  Holds : (script past : List Order) → (Label → Handle) → σ → Prop
  start : ∀ script handles, Holds script [] handles fresh
  step : ∀ {script past rest order handles file}, Scoped script →
    (style.roles script).length ≤ Handle.count → script = past ++ order :: rest →
    Holds script past handles file → Accepts (order.clause (ownerOf script)) →
    ∃ handles' file', order.run handles file = .ok handles' file' ∧
      Holds script (past ++ [order]) handles' file'
  accepts : ∀ {script past rest order handles file handles' file'}, Scoped script →
    (style.roles script).length ≤ Handle.count → script = past ++ order :: rest →
    Holds script past handles file → order.run handles file = .ok handles' file' →
    Accepts (order.clause (ownerOf script))
  size_fresh : size fresh = 1
  adds : ∀ handles order index,
    Step.Adds size (style.rolesOf order index).length (Order.run handles order)
  length_rolesOf : ∀ owners order index,
    (style.rolesOf order index).length = width (order.clause owners)

namespace Drafting

variable {style : Style} {σ : Type} [Target σ] (drafting : Drafting style σ) {script : List Order}
  {handles handles' : Label → Handle} {file : σ}

/-- A script runs if all of its clauses are accepted. -/
theorem run_of_accepts (hscoped : Scoped script)
    (hroom : (style.roles script).length ≤ Handle.count) (handles : Label → Handle)
    (haccepts : ∀ order ∈ script, drafting.Accepts (order.clause (ownerOf script))) :
    ∃ handles' file, run handles script drafting.fresh = .ok handles' file ∧
      drafting.Holds script script handles' file := by
  refine run_progress [] ?_ (drafting.start script handles)
  intro past handles file order rest hsplit h
  rw [List.nil_append] at hsplit
  exact drafting.step hscoped hroom hsplit h (haccepts order (by simp [hsplit]))

/-- If a script runs, all of its clauses are accepted and the file holds what it says. -/
theorem holds_of_run (hscoped : Scoped script)
    (hroom : (style.roles script).length ≤ Handle.count)
    (h : run handles script drafting.fresh = .ok handles' file) :
    drafting.Holds script script handles' file ∧
      ∀ order ∈ script, drafting.Accepts (order.clause (ownerOf script)) := by
  refine run_invariant
    (fun past handles file => past <+: script → drafting.Holds script past handles file ∧
      ∀ order ∈ past, drafting.Accepts (order.clause (ownerOf script)))
    ?_ [] hscoped (fun _ => ⟨drafting.start script handles, by simp⟩) h (List.prefix_refl script)
  intro past handles file order handles' file' _ hpast hrun hprefix
  obtain ⟨rest, hsplit⟩ := hprefix
  rw [← List.append_cons] at hsplit
  obtain ⟨hholds, haccepts⟩ := hpast ⟨_, hsplit⟩
  have horder := drafting.accepts hscoped hroom hsplit.symm hholds hrun
  obtain ⟨_, _, hstep, hnext⟩ := drafting.step hscoped hroom hsplit.symm hholds horder
  rw [hrun] at hstep
  cases hstep
  refine ⟨hnext, fun other hother => ?_⟩
  rcases List.mem_append.mp hother with hother | hother
  · exact haccepts other hother
  · rwa [List.mem_singleton.mp hother]

theorem size_of_run (h : run handles script drafting.fresh = .ok handles' file) :
    drafting.size file = (style.roles script).length :=
  Style.size_of_run drafting.adds h drafting.size_fresh

/-- Whether a script runs depends only on its clauses, not on their order. -/
theorem run_of_perm {first second : List Order} (hfirst : Scoped first) (hsecond : Scoped second)
    (hperm : (first.map (Order.clause (ownerOf first))).Perm
      (second.map (Order.clause (ownerOf second))))
    (h : run handles first drafting.fresh = .ok handles' file)
    (hroom : drafting.size file ≤ Handle.count) :
    ∃ handles' file', run handles second drafting.fresh = .ok handles' file' ∧
      drafting.size file' = drafting.size file := by
  have hsize := drafting.size_of_run h
  have hroles := Style.length_roles_eq_of_perm drafting.length_rolesOf hperm
  rw [hsize] at hroom
  obtain ⟨-, haccepts⟩ := drafting.holds_of_run hfirst hroom h
  have haccepts' : ∀ order ∈ second, drafting.Accepts (order.clause (ownerOf second)) := by
    intro order horder
    have hclause := hperm.mem_iff.mpr (List.mem_map_of_mem horder)
    obtain ⟨other, hother, heq⟩ := List.mem_map.mp hclause
    rw [← heq]
    exact haccepts other hother
  obtain ⟨handles'', file', hrun, -⟩ :=
    drafting.run_of_accepts hsecond (hroles ▸ hroom) handles haccepts'
  exact ⟨handles'', file', hrun, by rw [drafting.size_of_run hrun, hsize, hroles]⟩

end Drafting

end Polyglot
