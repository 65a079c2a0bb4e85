import Polyglot.Proofs.Replay
import Polyglot.Proofs.Session

/-! # Edited programs

A program that came about by calls and new blocks, whatever blocks the calls were meant for, is well
formed: it mentions blocks of its own only, each of them once, and in a block only later ones. So it
is a finite tree: a replay comes to an end, and cannot fail unless the target does.
-/

namespace Polyglot

open Script

/-- The bodies that a declaration mentions. -/
def Decl.bodies : Decl → List Handle
  | method declared => [declared.body]
  | _ => []

namespace Program

variable {program : Program} {block : Handle} {stmt : Stmt} {decl : Decl}

/-- All blocks that are mentioned, as often as that is: by methods, then by statements. -/
def mentions (program : Program) : List Handle :=
  program.decls.toList.flatMap Decl.bodies ++
    program.blocks.toList.flatMap fun stmts => stmts.toList.flatMap Stmt.scopes

/-- Blocks that are mentioned are there, are mentioned once, and come after the block that mentions
them. -/
structure WellFormed (program : Program) : Prop where
  allocated : ∀ handle ∈ program.mentions, handle.index < program.blocks.size
  ascending : ∀ (i : Nat) (stmts : Array Stmt), program.blocks[i]? = some stmts →
    ∀ stmt ∈ stmts.toList, ∀ inner ∈ stmt.scopes, i < inner.index
  once : program.mentions.Nodup

/-! ### Changes -/

@[simp] theorem size_newBlock : program.newBlock.2.blocks.size = program.blocks.size + 1 := by
  simp [newBlock]

@[simp] theorem size_addStmt : (program.addStmt block stmt).blocks.size = program.blocks.size := by
  simp [addStmt]

@[simp] theorem mentions_newBlock : program.newBlock.2.mentions = program.mentions := by
  simp [mentions, newBlock]

theorem mentions_addDecl :
    (program.addDecl decl).mentions.Perm (program.mentions ++ decl.bodies) := by
  simp only [mentions, addDecl, Array.toList_push, List.flatMap_append, List.flatMap_singleton,
    List.append_assoc]
  exact List.perm_append_comm.append_left _

theorem mentions_addStmt (h : block.index < program.blocks.size) :
    (program.addStmt block stmt).mentions.Perm (program.mentions ++ stmt.scopes) := by
  have hfind : program.blocks.toList[block.index]? = some program.blocks[block.index] := by
    simp [h]
  rw [mentions, mentions, List.append_assoc, addStmt, Array.toList_modify,
    ← List.append_nil (List.flatMap _ (List.modify _ _ _))]
  apply List.Perm.append_left
  apply perm_flatMap_modify _ _ hfind
  simp

namespace WellFormed

theorem start : WellFormed {} where
  allocated := by
    rintro handle ⟨⟩
  ascending := by
    rintro i stmts hfind
    simp at hfind
  once := List.nodup_nil

theorem newBlock (h : program.WellFormed) : program.newBlock.2.WellFormed where
  allocated handle hhandle := by
    rw [mentions_newBlock] at hhandle
    rw [size_newBlock]
    exact Nat.lt_succ_of_lt (h.allocated handle hhandle)
  ascending i stmts hfind := by
    rw [Program.newBlock, Array.getElem?_push] at hfind
    split at hfind
    · cases hfind
      rintro stmt ⟨⟩
    · exact h.ascending i stmts hfind
  once := by
    rw [mentions_newBlock]
    exact h.once

/-- A declaration may mention a block that is mentioned nowhere else. -/
theorem addDecl (h : program.WellFormed) (hnodup : decl.bodies.Nodup)
    (hfresh : ∀ body ∈ decl.bodies, body.index < program.blocks.size ∧
      body ∉ program.mentions) : (program.addDecl decl).WellFormed where
  allocated handle hhandle := by
    rcases List.mem_append.mp (mentions_addDecl.mem_iff.mp hhandle) with hold | hnew
    · exact h.allocated handle hold
    · exact (hfresh handle hnew).1
  ascending := h.ascending
  once := by
    rw [mentions_addDecl.nodup_iff]
    apply h.once.append hnodup
    intro handle hold hnew
    exact (hfresh handle hnew).2 hold

/-- A statement may mention later blocks that are mentioned nowhere else. -/
theorem addStmt (h : program.WellFormed) (hblock : block.index < program.blocks.size)
    (hnodup : stmt.scopes.Nodup) (hfresh : ∀ inner ∈ stmt.scopes,
      inner.index < program.blocks.size ∧ inner ∉ program.mentions ∧ block.index < inner.index) :
    (program.addStmt block stmt).WellFormed where
  allocated handle hhandle := by
    rw [size_addStmt]
    rcases List.mem_append.mp ((mentions_addStmt hblock).mem_iff.mp hhandle) with hold | hnew
    · exact h.allocated handle hold
    · exact (hfresh handle hnew).1
  ascending i stmts hfind := by
    rw [Program.addStmt, Array.getElem?_modify] at hfind
    split at hfind
    next heq =>
      subst heq
      obtain ⟨old, hold, rfl⟩ := Option.map_eq_some_iff.mp hfind
      intro other hother inner hinner
      rw [Array.toList_push] at hother
      rcases List.mem_append.mp hother with hother | hother
      · exact h.ascending _ old hold other hother inner hinner
      · rw [List.mem_singleton.mp hother] at hinner
        exact (hfresh inner hinner).2.2
    next => exact h.ascending i stmts hfind
  once := by
    rw [(mentions_addStmt hblock).nodup_iff]
    apply h.once.append hnodup
    intro handle hold hnew
    exact (hfresh handle hnew).2.1 hold

/-- The next block is mentioned nowhere. -/
theorem next_not_mem (h : program.WellFormed) {i : Nat} (hle : program.blocks.size ≤ i)
    (hlt : i < Handle.count) : Handle.next i ∉ program.mentions := by
  intro hmem
  have hold := h.allocated _ hmem
  rw [Handle.index_next hlt] at hold
  omega

/-- A method mentions its body, which is new. -/
theorem method (h : program.WellFormed) (hroom : program.blocks.size < Handle.count)
    (owner name : String) (params : List Field) (returns : Option Ty) :
    (program.newBlock.2.addDecl (.method { model := owner, name, params, returns
                                           body := .next program.blocks.size })).WellFormed := by
  refine h.newBlock.addDecl (List.nodup_singleton _) ?_
  intro body hbody
  rw [List.mem_singleton.mp hbody, mentions_newBlock, size_newBlock, Handle.index_next hroom]
  exact ⟨Nat.lt_succ_self _, h.next_not_mem (Nat.le_refl _) hroom⟩

theorem enter (h : program.WellFormed) (hroom : program.blocks.size < Handle.count)
    (hblock : block.index < program.blocks.size) (scope : Scope) :
    (program.newBlock.2.addStmt block (.enter scope (.next program.blocks.size))).WellFormed := by
  refine h.newBlock.addStmt ?_ (List.nodup_singleton _) ?_
  · rw [size_newBlock]
    exact Nat.lt_succ_of_lt hblock
  · intro inner hinner
    rw [List.mem_singleton.mp hinner, mentions_newBlock, size_newBlock, Handle.index_next hroom]
    exact ⟨Nat.lt_succ_self _, h.next_not_mem (Nat.le_refl _) hroom, hblock⟩

theorem branch (h : program.WellFormed) (hroom : program.blocks.size + 1 < Handle.count)
    (hblock : block.index < program.blocks.size) (condition : Value) :
    (program.newBlock.2.newBlock.2.addStmt block (.branch condition (.next program.blocks.size)
      (.next (program.blocks.size + 1)))).WellFormed := by
  have hthen := Handle.index_next (Nat.lt_of_succ_lt hroom)
  have helse := Handle.index_next hroom
  refine h.newBlock.newBlock.addStmt ?_ ?_ ?_
  · rw [size_newBlock, size_newBlock]
    omega
  · rw [Stmt.scopes, List.nodup_cons, List.mem_singleton]
    refine ⟨?_, List.nodup_singleton _⟩
    intro heq
    have hindex := congrArg Handle.index heq
    omega
  · intro inner hinner
    rw [mentions_newBlock, mentions_newBlock, size_newBlock, size_newBlock]
    rcases List.mem_cons.mp hinner with rfl | hinner
    · exact ⟨by omega, h.next_not_mem (Nat.le_refl _) (Nat.lt_of_succ_lt hroom), by omega⟩
    · rw [List.mem_singleton.mp hinner]
      exact ⟨by omega, h.next_not_mem (Nat.le_succ _) hroom, by omega⟩

end WellFormed

/-! ### Edits -/

/-- Whatever a call is, a program looks for the call's block first. -/
theorem run_eq_check_bind {call : Call} (h : call.block? = some block) :
    ∃ next, (call.run : Step Program Reply) = check block >>= next := by
  cases call with
  | act outer action =>
    cases h
    exact ⟨_, bind_assoc ..⟩
  | enter outer scope =>
    cases h
    exact ⟨_, bind_assoc ..⟩
  | branch outer condition =>
    cases h
    exact ⟨_, bind_assoc ..⟩
  | _ => cases h

theorem state_run_of_not_lt {call : Call} (hblock : call.block? = some block)
    (h : ¬ block.index < program.blocks.size) : Step.state (call.run program) = program := by
  obtain ⟨next, hrun⟩ := run_eq_check_bind hblock
  rw [hrun, Step.bind_of_error (check_of_not_lt h)]
  rfl

/-- While there are handles for all blocks, a call keeps a program well formed. -/
theorem wellFormed_run (call : Call) (h : program.blocks.size ≤ Handle.count → program.WellFormed)
    (hroom : (Step.state (call.run program)).blocks.size ≤ Handle.count) :
    (Step.state (call.run program)).WellFormed := by
  cases call with
  | model name fields => exact (h hroom).addDecl List.nodup_nil (by rintro body ⟨⟩)
  | enumeration name values => exact (h hroom).addDecl List.nodup_nil (by rintro body ⟨⟩)
  | method owner name params returns =>
    change program.newBlock.2.blocks.size ≤ Handle.count at hroom
    have hlt : program.blocks.size < Handle.count := by
      rwa [size_newBlock] at hroom
    exact (h (Nat.le_of_lt hlt)).method hlt owner name params returns
  | act block action =>
    by_cases hblock : block.index < program.blocks.size
    · have hact : Target.act block action program = _ := record_of_lt (.act action) hblock
      rw [Call.run, Step.bind_of_ok hact] at hroom ⊢
      have hold := h (Nat.le_trans (Nat.le_of_eq size_addStmt.symm) hroom)
      exact hold.addStmt hblock List.nodup_nil (by rintro inner ⟨⟩)
    · rw [state_run_of_not_lt rfl hblock] at hroom ⊢
      exact h hroom
  | enter block scope =>
    by_cases hblock : block.index < program.blocks.size
    · rw [Call.run, Step.bind_of_ok (enter_of_lt scope hblock)] at hroom ⊢
      have hlt : program.blocks.size < Handle.count := by
        rwa [Step.pure_apply, Step.state, size_addStmt, size_newBlock] at hroom
      exact (h (Nat.le_of_lt hlt)).enter hlt hblock scope
    · rw [state_run_of_not_lt rfl hblock] at hroom ⊢
      exact h hroom
  | branch block condition =>
    by_cases hblock : block.index < program.blocks.size
    · rw [Call.run, Step.bind_of_ok (branch_of_lt condition hblock)] at hroom ⊢
      change (Program.addStmt ..).blocks.size ≤ Handle.count at hroom
      have hlt : program.blocks.size + 1 < Handle.count := by
        rwa [size_addStmt, size_newBlock, size_newBlock] at hroom
      exact (h (Nat.le_of_lt (Nat.lt_of_succ_lt hlt))).branch hlt hblock condition
    · rw [state_run_of_not_lt rfl hblock] at hroom ⊢
      exact h hroom

end Program

/-- What can be done to a program: a call, or a new block that nothing mentions. -/
inductive Edit where
  | call (made : Call)
  | newBlock

def Edit.run : Edit → Step Program Unit
  | call made => do
    let _ ← made.run
  | newBlock => do
    let _ ← Program.allocate

/-- The program that edits lead to, whether or not each of them succeeds. -/
abbrev Edit.session (edits : List Edit) : Program :=
  Step.attempt Edit.run edits {}

theorem Edit.preserves_wellFormed (edit : Edit) : Step.Preserves
    (fun program => program.blocks.size ≤ Handle.count → program.WellFormed) edit.run := by
  intro program h
  cases edit with
  | call made =>
    rw [run, Step.state_bind_pure]
    exact Program.wellFormed_run made h
  | newBlock =>
    intro hroom
    change program.newBlock.2.blocks.size ≤ Handle.count at hroom
    rw [Program.size_newBlock] at hroom
    exact (h (Nat.le_of_succ_le hroom)).newBlock

/-! ### Replays -/

/-- The call of a script, given the handles of the open blocks. -/
def Order.call (handles : Label → Handle) : Order → Call
  | model name fields => .model name fields
  | enumeration name values => .enumeration name values
  | method owner name params returns _ => .method owner name params returns
  | act block action => .act (handles block) action
  | enter block scope _ => .enter (handles block) scope
  | branch block condition _ _ => .branch (handles block) condition

theorem Order.call_of_error {σ : Type} [Target σ] {handles : Label → Handle} {order : Order}
    {s s' : σ} {fault : Fault} (h : order.run handles s = .error fault s') :
    (order.call handles).run s = .error fault s' := by
  cases order <;>
  · rcases Step.bind_eq_error_iff.mp h with hcall | ⟨_, _, _, ⟨⟩⟩
    exact Step.bind_of_error hcall

/-- A run that stops does so at a call, after calls that succeeded. -/
theorem Script.exists_call_of_error {σ : Type} [Target σ] {handles : Label → Handle}
    {script : List Order} {s s' : σ} {fault : Fault} (h : run handles script s = .error fault s') :
    ∃ past handles' between, run handles past s = .ok handles' between ∧
      ∃ call : Call, call.run between = .error fault s' := by
  induction script generalizing handles s with
  | nil => cases h
  | cons order rest ih =>
    rcases Step.bind_eq_error_iff.mp h with hstop | ⟨next, s₁, hfirst, hstop⟩
    · exact ⟨[], handles, s, rfl, order.call handles, Order.call_of_error hstop⟩
    · obtain ⟨past, handles', between, hpast, hcall⟩ := ih hstop
      exact ⟨order :: past, handles', between, (Step.bind_of_ok hfirst).trans hpast, hcall⟩

theorem Stmt.whole_outline {tree : Handle → List (Outline Handle)} {stmt : Stmt}
    (h : ∀ inner ∈ stmt.scopes, Outline.WholeAll (tree inner)) : (stmt.outline tree).Whole := by
  cases stmt <;> simp_all [outline, scopes, Outline.Whole]

namespace Program

variable {program : Program}

theorem mem_mentions_of_mem_scopes {i : Nat} {stmts : Array Stmt} {stmt : Stmt} {inner : Handle}
    (hfind : program.blocks[i]? = some stmts) (hstmt : stmt ∈ stmts.toList)
    (hinner : inner ∈ stmt.scopes) : inner ∈ program.mentions := by
  have hstmts : stmts ∈ program.blocks.toList :=
    Array.mem_toList_iff.mpr (Array.mem_of_getElem? hfind)
  apply List.mem_append_right
  exact List.mem_flatMap.mpr ⟨stmts, hstmts, List.mem_flatMap.mpr ⟨stmt, hstmt, hinner⟩⟩

theorem mem_mentions_of_mem_bodies {decl : Decl} {body : Handle}
    (hdecl : decl ∈ program.decls.toList) (hbody : body ∈ decl.bodies) :
    body ∈ program.mentions :=
  List.mem_append_left _ (List.mem_flatMap.mpr ⟨decl, hdecl, hbody⟩)

namespace WellFormed

theorem acyclic (h : program.WellFormed) : program.Acyclic := by
  apply acyclic_of_rank id
  intro i hi stmt hstmt inner hinner
  exact h.ascending i _ (Array.getElem?_eq_getElem hi) stmt hstmt inner hinner

/-- No more blocks are nested in a block than come after it. -/
theorem wholeAll_unfoldBlock (h : program.WellFormed) {depth : Nat} {handle : Handle}
    (hlt : handle.index < program.blocks.size)
    (hdepth : program.blocks.size ≤ depth + handle.index) :
    Outline.WholeAll (program.unfoldBlock depth handle) := by
  induction depth generalizing handle with
  | zero => omega
  | succ depth ih =>
    have hfind : program.block? handle = some program.blocks[handle.index] :=
      Array.getElem?_eq_getElem hlt
    rw [unfoldBlock_succ, expand_of_some _ hfind, Outline.wholeAll_iff]
    intro outline houtline
    obtain ⟨stmt, hstmt, rfl⟩ := List.mem_map.mp houtline
    apply Stmt.whole_outline
    intro inner hinner
    have hlater := h.ascending _ _ hfind stmt hstmt inner hinner
    apply ih
    · exact h.allocated inner (mem_mentions_of_mem_scopes hfind hstmt hinner)
    · omega

theorem whole_unfold (h : program.WellFormed) : ∀ part ∈ program.unfold, part.Whole := by
  intro part hpart
  obtain ⟨decl, hdecl, rfl⟩ := List.mem_map.mp hpart
  cases decl with
  | model name fields => trivial
  | enumeration name values => trivial
  | method declared =>
    apply h.wholeAll_unfoldBlock
    · exact h.allocated _ (mem_mentions_of_mem_bodies hdecl List.mem_cons_self)
    · omega

end WellFormed

/-- Replays of the program come to an end and fail only where the target does. -/
structure Replayable (program : Program) : Prop where
  /-- A replay that may go deeper than the number of blocks does not do so. -/
  bounded : ∀ {σ : Type} [Target σ] (depth : Nat), program.blocks.size ≤ depth →
    (program.replayBlock depth : Handle → Handle → Step σ Unit) =
      program.replayBlock program.blocks.size
  /-- The calls that a replay makes are those of one script, whatever the target. -/
  scripted : ∃ script, Scoped script ∧ ∀ {σ : Type} [Target σ],
    (program.replay : Step σ Unit) = Script.run noHandles script >>= fun _ => return ()
  /-- A replay that stops does so at a call, with the fault that the target has for it. -/
  faults : ∀ {σ : Type} [Target σ] {s s' : σ} {fault : Fault},
    program.replay s = .error fault s' → ∃ past handles between,
      Script.run noHandles past s = .ok handles between ∧
        ∃ call : Call, call.run between = .error fault s'
  /-- An empty program has no fault for any call. -/
  copied : ∃ copy, program.replay ({} : Program) = .ok () copy

theorem WellFormed.replayable (h : program.WellFormed) : program.Replayable where
  bounded depth hdepth := by
    funext source block
    rw [replayBlock_eq_writeAll, replayBlock_eq_writeAll, h.acyclic.unfoldBlock_eq hdepth]
  scripted := ⟨_, Section.scoped_script program.unfold, replay_eq_run h.whole_unfold⟩
  faults hstop := by
    rw [replay_eq_run h.whole_unfold] at hstop
    rcases Step.bind_eq_error_iff.mp hstop with hstop | ⟨_, _, _, ⟨⟩⟩
    exact Script.exists_call_of_error hstop
  copied := by
    obtain ⟨handles, copy, hrun, -⟩ := (Section.scoped_script program.unfold).run_kept noHandles
    exact ⟨copy, replay_eq_ok_iff.mpr ⟨h.whole_unfold, handles, hrun⟩⟩

end Program

/-- Whatever edits a program came about by, refused ones among them, it is well formed as long as
there are handles for all its blocks, and so replays of it come to an end and have no faults of
their own. -/
theorem wellFormed_of_edits (edits : List Edit)
    (hroom : (Edit.session edits).blocks.size ≤ Handle.count) :
    (Edit.session edits).WellFormed ∧ (Edit.session edits).Replayable := by
  have h : (Edit.session edits).WellFormed :=
    Step.attempt_invariant Edit.preserves_wellFormed edits (fun _ => Program.WellFormed.start) hroom
  exact ⟨h, h.replayable⟩

/-- A method with a choice in it. In between there is a call for a block that is not there yet, and
a block is added that nothing mentions but that gets a loop. -/
def strayEdits : List Edit :=
  [.call (.act ⟨0⟩ (.giveBack .null)), .newBlock, .call (.method "Till" "count" [] none),
    .call (.branch ⟨1⟩ .null), .call (.enter ⟨0⟩ (.forEach .null "" "")),
    .call (.act ⟨3⟩ (.giveBack .null))]

theorem wellFormed_of_edits_stray : (Edit.session strayEdits).mentions = [⟨1⟩, ⟨4⟩, ⟨2⟩, ⟨3⟩] ∧
    (Edit.session strayEdits).WellFormed ∧ (Edit.session strayEdits).Replayable :=
  ⟨by decide +kernel, wellFormed_of_edits strayEdits (by decide +kernel)⟩

end Polyglot
