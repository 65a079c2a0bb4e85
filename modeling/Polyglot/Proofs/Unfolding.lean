import Mathlib.Logic.Function.Iterate
import Polyglot.Proofs.Table
import Polyglot.Target.Replay

/-! # Programs as trees

The tree of a program, by an equation: a block stands for its statements, with the trees of inner
blocks in place of their handles. If no block is nested in itself, exactly one tree solves the
equation, and it is what the program unfolds to.
-/

namespace Polyglot

/-- The blocks that a statement refers to. -/
def Stmt.scopes : Stmt → List Handle
  | act _ => []
  | enter _ body => [body]
  | branch _ thenBody elseBody => [thenBody, elseBody]

/-- A statement as a tree, given the trees of all blocks. -/
def Stmt.outline (tree : Handle → List (Outline Handle)) : Stmt → Outline Handle
  | act action => .act action
  | enter scope body => .enter scope (tree body)
  | branch condition thenBody elseBody => .branch condition (tree thenBody) (tree elseBody)

theorem Stmt.outline_congr {first second : Handle → List (Outline Handle)} {stmt : Stmt}
    (h : ∀ inner ∈ stmt.scopes, first inner = second inner) :
    stmt.outline first = stmt.outline second := by
  cases stmt <;> simp_all [outline, scopes]

/-- A declaration as a tree, given the trees of all blocks. -/
def Decl.outline (tree : Handle → List (Outline Handle)) : Decl → Section Handle
  | model name fields => .model name fields
  | enumeration name values => .enumeration name values
  | method declared =>
    .method declared.model declared.name declared.params declared.returns (tree declared.body)

namespace Program

variable {program : Program} {first second tree : Handle → List (Outline Handle)}

/-- A statement of the outer block refers to the inner one. -/
def RefersTo (program : Program) (outer inner : Handle) : Prop :=
  ∃ stmts, program.block? outer = some stmts ∧ ∃ stmt ∈ stmts.toList, inner ∈ stmt.scopes

/-- No block is nested in itself. -/
def Acyclic (program : Program) : Prop :=
  ∀ handle, ¬ Relation.TransGen program.RefersTo handle handle

/-- A block as a tree, given the trees of the blocks in it. -/
def expand (program : Program) (tree : Handle → List (Outline Handle)) (handle : Handle) :
    List (Outline Handle) :=
  match program.block? handle with
  | none => [.gap handle]
  | some stmts => stmts.toList.map (Stmt.outline tree)

/-- The tree of every block consists of the block's statements. -/
def IsUnfolding (program : Program) (tree : Handle → List (Outline Handle)) : Prop :=
  program.expand tree = tree

/-- The declarations of a program, given the trees of all blocks. -/
def outline (program : Program) (tree : Handle → List (Outline Handle)) : List (Section Handle) :=
  program.decls.toList.map (Decl.outline tree)

theorem acyclic_of_rank (rank : Nat → Nat)
    (h : ∀ i (hi : i < program.blocks.size), ∀ stmt ∈ program.blocks[i].toList,
      ∀ inner ∈ stmt.scopes, rank i < rank inner.index) : program.Acyclic := by
  have hstep : ∀ outer inner, program.RefersTo outer inner →
      rank outer.index < rank inner.index := by
    rintro outer inner ⟨stmts, hblock, stmt, hstmt, hinner⟩
    obtain ⟨hlt, rfl⟩ := Array.getElem?_eq_some_iff.mp hblock
    exact h outer.index hlt stmt hstmt inner hinner
  have hpath : ∀ outer inner, Relation.TransGen program.RefersTo outer inner →
      rank outer.index < rank inner.index := by
    intro outer inner hpath
    induction hpath with
    | single hlast => exact hstep _ _ hlast
    | tail _ hlast ih => exact Nat.lt_trans ih (hstep _ _ hlast)
  intro handle hcycle
  exact Nat.lt_irrefl _ (hpath handle handle hcycle)

/-- Blocks that refer to each other in turn are distinct, so there are no more than the program
has. -/
theorem Acyclic.length_le (h : program.Acyclic) {chain : List Handle}
    (hchain : List.IsChain program.RefersTo chain)
    (hblocks : ∀ handle ∈ chain, handle.index < program.blocks.size) :
    chain.length ≤ program.blocks.size :=
  Handle.length_le_of_isChain h hchain hblocks

theorem expand_of_none (tree : Handle → List (Outline Handle)) {handle : Handle}
    (h : program.block? handle = none) : program.expand tree handle = [.gap handle] := by
  rw [expand, h]

theorem expand_of_some (tree : Handle → List (Outline Handle)) {handle : Handle}
    {stmts : Array Stmt} (h : program.block? handle = some stmts) :
    program.expand tree handle = stmts.toList.map (Stmt.outline tree) := by
  rw [expand, h]

/-- Where two expansions of a block differ, they differ in a block that it refers to. -/
theorem exists_of_expand_ne {handle : Handle}
    (h : program.expand first handle ≠ program.expand second handle) :
    ∃ inner, program.RefersTo handle inner ∧ first inner ≠ second inner := by
  by_contra hnone
  apply h
  cases hblock : program.block? handle with
  | none => rw [expand_of_none _ hblock, expand_of_none _ hblock]
  | some stmts =>
    rw [expand_of_some _ hblock, expand_of_some _ hblock]
    refine List.map_congr_left fun stmt hstmt => Stmt.outline_congr fun inner hinner => ?_
    by_contra hne
    exact hnone ⟨inner, ⟨stmts, hblock, stmt, hstmt, hinner⟩, hne⟩

/-- Where two repeated expansions of a block differ, as many blocks are nested in each other. -/
theorem exists_chain_of_iterate_ne {depth : Nat} {handle : Handle}
    (hgap : ∀ handle, program.block? handle = none → first handle = second handle)
    (h : program.expand^[depth] first handle ≠ program.expand^[depth] second handle) :
    ∃ chain, List.IsChain program.RefersTo (handle :: chain) ∧ chain.length = depth ∧
      ∀ inner ∈ handle :: chain, inner.index < program.blocks.size := by
  have hindex : ∀ {handle : Handle}, program.block? handle ≠ none →
      handle.index < program.blocks.size := by
    intro handle hblock
    rw [block?, ne_eq, Array.getElem?_eq_none_iff] at hblock
    omega
  induction depth generalizing handle with
  | zero =>
    refine ⟨[], .singleton handle, rfl, ?_⟩
    intro inner hinner
    rw [List.mem_singleton.mp hinner]
    exact hindex fun hnone => h (hgap handle hnone)
  | succ depth ih =>
    rw [Function.iterate_succ_apply', Function.iterate_succ_apply'] at h
    obtain ⟨inner, hrefers, hne⟩ := exists_of_expand_ne h
    obtain ⟨chain, hchain, hlength, hblocks⟩ := ih hne
    refine ⟨inner :: chain, .cons_cons hrefers hchain, by simp [hlength], ?_⟩
    intro other hother
    rcases List.mem_cons.mp hother with rfl | hother
    · obtain ⟨stmts, hblock, -⟩ := hrefers
      exact hindex (by simp [hblock])
    · exact hblocks other hother

/-- Expanding blocks as often as there are blocks leaves nothing of what it began with. -/
theorem Acyclic.iterate_eq (hacyclic : program.Acyclic)
    (hgap : ∀ handle, program.block? handle = none → first handle = second handle) :
    program.expand^[program.blocks.size] first = program.expand^[program.blocks.size] second := by
  funext handle
  by_contra hne
  obtain ⟨chain, hchain, hlength, hblocks⟩ := exists_chain_of_iterate_ne hgap hne
  have hle := hacyclic.length_le hchain hblocks
  rw [List.length_cons, hlength] at hle
  omega

theorem unfoldBlock_succ (program : Program) (depth : Nat) :
    program.unfoldBlock (depth + 1) = program.expand (program.unfoldBlock depth) := by
  funext handle
  rw [unfoldBlock]
  split
  next hblock => rw [expand_of_none _ hblock]
  next stmts hblock =>
    rw [expand_of_some _ hblock]
    refine List.map_congr_left fun stmt _ => ?_
    cases stmt <;> rfl

theorem unfoldBlock_eq_iterate (program : Program) (depth : Nat) :
    program.unfoldBlock depth = program.expand^[depth] fun handle => [.gap handle] := by
  induction depth with
  | zero => rfl
  | succ depth ih => rw [Function.iterate_succ_apply', ← ih, unfoldBlock_succ]

/-- An acyclic program unfolds to its tree. -/
theorem Acyclic.isUnfolding (hacyclic : program.Acyclic) :
    program.IsUnfolding (program.unfoldBlock program.blocks.size) := by
  rw [IsUnfolding, unfoldBlock_eq_iterate, ← Function.iterate_succ_apply' program.expand,
    Function.iterate_succ_apply]
  exact hacyclic.iterate_eq fun handle hnone => expand_of_none _ hnone

/-- An acyclic program has no other tree. -/
theorem Acyclic.eq_unfoldBlock (hacyclic : program.Acyclic) (htree : program.IsUnfolding tree) :
    tree = program.unfoldBlock program.blocks.size := by
  have hfixed : program.expand^[program.blocks.size] tree = tree :=
    Function.iterate_fixed htree _
  rw [unfoldBlock_eq_iterate, ← hfixed]
  refine hacyclic.iterate_eq fun handle hnone => ?_
  rw [← congrFun htree handle, expand_of_none _ hnone]

/-- To allow for more depth than an acyclic program has blocks makes no difference. -/
theorem Acyclic.unfoldBlock_eq (hacyclic : program.Acyclic) {depth : Nat}
    (hdepth : program.blocks.size ≤ depth) :
    program.unfoldBlock depth = program.unfoldBlock program.blocks.size := by
  obtain ⟨more, rfl⟩ := Nat.exists_eq_add_of_le' hdepth
  rw [unfoldBlock_eq_iterate, Function.iterate_add_apply, ← unfoldBlock_eq_iterate]
  exact Function.iterate_fixed hacyclic.isUnfolding more

theorem unfold_eq_outline (program : Program) :
    program.unfold = program.outline (program.unfoldBlock program.blocks.size) := by
  rw [unfold, outline]
  refine List.map_congr_left fun decl _ => ?_
  cases decl <;> rfl

end Program

end Polyglot
