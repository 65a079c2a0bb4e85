import Mathlib.Data.List.Perm.Subperm
import Mathlib.Logic.Relation
import Polyglot.Handle

/-! # Tables of blocks

Two facts about tables whose blocks refer to each other by their positions. Handles that lead to
each other in turn, where none leads back to itself, are distinct, so there are no more of them than
blocks. And what is collected from all blocks changes with one block by what that block loses and
gains.
-/

namespace Polyglot

theorem Handle.length_le_of_isChain {leads : Handle → Handle → Prop}
    (hacyclic : ∀ handle, ¬ Relation.TransGen leads handle handle) {chain : List Handle}
    (hchain : List.IsChain leads chain) {size : Nat}
    (hblocks : ∀ handle ∈ chain, handle.index < size) : chain.length ≤ size := by
  have hpaths : chain.Pairwise (Relation.TransGen leads) :=
    (hchain.imp fun _ _ => Relation.TransGen.single).pairwise
  have hdistinct : (chain.map index).Nodup := by
    apply List.pairwise_map.mpr
    apply hpaths.imp
    intro outer inner hpath heq
    rw [index_inj heq] at hpath
    exact hacyclic inner hpath
  have hsubset : chain.map index ⊆ List.range size := by
    intro i hi
    obtain ⟨handle, hmem, rfl⟩ := List.mem_map.mp hi
    exact List.mem_range.mpr (hblocks handle hmem)
  simpa using (hdistinct.subperm hsubset).length_le

theorem perm_flatMap_modify {α β : Type} (collect : α → List β) (change : α → α)
    {table : List α} {i : Nat} {a : α} (hi : table[i]? = some a) {lost gained : List β}
    (h : (collect (change a) ++ lost).Perm (collect a ++ gained)) :
    ((table.modify i change).flatMap collect ++ lost).Perm (table.flatMap collect ++ gained) := by
  induction table generalizing i with
  | nil => simp at hi
  | cons first rest ih =>
    cases i with
    | zero =>
      obtain rfl : first = a := by simpa using hi
      rw [List.modify_zero_cons, List.flatMap_cons, List.flatMap_cons]
      have hswap : ∀ first second third : List β,
          (first ++ second ++ third).Perm (first ++ third ++ second) := by
        intro first second third
        rw [List.append_assoc, List.append_assoc]
        exact List.perm_append_comm.append_left first
      exact (hswap ..).trans ((h.append_right _).trans (hswap ..))
    | succ i =>
      rw [List.getElem?_cons_succ] at hi
      rw [List.modify_succ_cons, List.flatMap_cons, List.flatMap_cons, List.append_assoc,
        List.append_assoc]
      exact (ih hi).append_left _

end Polyglot
