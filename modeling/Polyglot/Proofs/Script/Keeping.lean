import Mathlib.Algebra.Order.BigOperators.Group.List
import Mathlib.Algebra.Order.Group.Nat
import Mathlib.Data.List.Flatten
import Polyglot.Proofs.Script.Clauses
import Polyglot.Proofs.Script.OfOutline
import Polyglot.Proofs.Script.Recording

/-! # Recordings of any size

A program that has run out of handles still unfolds to all the calls that were recorded, in order,
with others in between. So it never unfolds to fewer blocks than it has itself.
-/

namespace Polyglot

/-- The number of blocks that a clause opens. -/
def Clause.scopes : Clause → Nat
  | method _ _ _ _ | enter _ _ => 1
  | branch _ _ => 2
  | _ => 0

theorem Outline.clausesAll_sublist {ω : Type} (model : String) {first second : List (Outline ω)}
    (h : first.Sublist second) : (clausesAll model first).Sublist (clausesAll model second) := by
  induction h with
  | slnil => exact List.Sublist.refl _
  | cons outline _ ih => exact ih.trans (List.sublist_append_right _ _)
  | cons_cons outline _ ih => exact ih.append_left _

theorem Order.clausesAll_outline_sublist {ω : Type} {model : String} {order : Order}
    {first second : Label → List (Outline ω)}
    (h : ∀ label ∈ order.opened, (Outline.clausesAll model (first label)).Sublist
      (Outline.clausesAll model (second label))) :
    (Outline.clausesAll model (order.outline first)).Sublist
      (Outline.clausesAll model (order.outline second)) := by
  cases order with
  | enter block scope body =>
    have hbody := h body (List.mem_singleton_self body)
    simpa [outline, Outline.clausesAll, Outline.clauses] using hbody
  | branch block condition thenBody elseBody =>
    have hthen := h thenBody List.mem_cons_self
    have helse := h elseBody (List.mem_cons_of_mem _ List.mem_cons_self)
    simpa [outline, Outline.clausesAll, Outline.clauses] using hthen.append helse
  | _ => exact List.Sublist.refl _

namespace Script

variable {script : List Order} {handles : Label → Handle} {program : Program} {label : Label}

/-- Bodies of which the second has all clauses of the first, in order. -/
theorem congruence_sublist {ω : Type} : Congruence (ω := ω) fun first second => ∀ model,
    (Outline.clausesAll model first).Sublist (Outline.clausesAll model second) where
  refl _ _ := List.Sublist.refl _
  trans hfirst hsecond model := (hfirst model).trans (hsecond model)
  append hfirst hsecond model := by
    rw [Outline.clausesAll_append, Outline.clausesAll_append]
    exact (hfirst model).append (hsecond model)
  outline h model := Order.clausesAll_outline_sublist fun label hlabel => h label hlabel model

/-- A script that describes more opens no fewer blocks. -/
theorem Scoped.length_opened_le {ω : Type} {first second : List Order} (hfirst : Scoped first)
    (hsecond : Scoped second)
    (h : ((sections (ω := ω) first).flatMap Section.clauses).Sublist
      ((sections (ω := ω) second).flatMap Section.clauses)) :
    (opened first).length ≤ (opened second).length := by
  have hsum : ∀ (owners : Label → String) (script : List Order),
      (opened script).length = ((script.map (Order.clause owners)).map Clause.scopes).sum := by
    intro owners script
    induction script with
    | nil => rfl
    | cons order rest ih =>
      rw [opened_cons, List.length_append, ih]
      cases order <;> simp [Order.opened, Order.clause, Clause.scopes]
  have hperm := (hfirst.perm_map_clause (ω := ω)).map Clause.scopes
  have hperm' := (hsecond.perm_map_clause (ω := ω)).map Clause.scopes
  rw [hsum (ownerOf first), hsum (ownerOf second), ← hperm.sum_nat, ← hperm'.sum_nat]
  exact (h.map Clause.scopes).sum_le_sum fun _ _ => Nat.zero_le _

/-- The calls into a block are among its statements. -/
theorem Kept.sublist_unfoldBlock (h : Kept script handles program) (hlabel : label ∈ opened script)
    (depth : Nat) : ((into label script).flatMap
      (Order.outline fun inner => program.unfoldBlock depth (handles inner))).Sublist
      (program.unfoldBlock (depth + 1) (handles label)) := by
  obtain ⟨stmts, hblock, hsublist⟩ := h.holds hlabel
  have hmap := hsublist.map (Stmt.outline (program.unfoldBlock depth))
  rw [List.map_flatMap] at hmap
  simp only [Order.map_outline_stmts] at hmap
  rwa [Program.unfoldBlock_succ, Program.expand_of_some _ hblock]

/-- No recorded call is lost, even if handles run out. -/
theorem Kept.sublist_unfold (hscoped : Scoped script) (h : Kept script handles program) :
    ((sections (ω := Handle) script).flatMap Section.clauses).Sublist
      (program.unfold.flatMap Section.clauses) := by
  rw [h.unfold_eq_flatMap, hscoped.sections_eq, List.flatMap_assoc, List.flatMap_assoc]
  apply List.Sublist.flatMap_right
  intro order horder
  cases order with
  | method owner name params returns inner =>
    have hbody := congruence_sublist.bodies hscoped
      (fun label hlabel depth model =>
        Outline.clausesAll_sublist model (h.sublist_unfoldBlock hlabel depth))
      (List.mem_flatMap.mpr ⟨_, horder, List.mem_singleton_self inner⟩) owner
    simpa [Order.declared, Section.clauses] using hbody
  | _ => exact List.Sublist.refl _

/-- A recorded program does not unfold to fewer blocks than it has. -/
theorem Kept.size_le (hscoped : Scoped script) (h : Kept script handles program)
    (hwhole : ∀ part ∈ program.unfold, part.Whole) :
    program.blocks.size ≤ (opened (Section.script program.unfold)).length := by
  rw [h.size]
  apply hscoped.length_opened_le (Section.scoped_script program.unfold)
  rw [Section.sections_script hwhole]
  exact h.sublist_unfold hscoped

end Script

end Polyglot
