import Polyglot.Proofs.Script.Meaning
import Polyglot.Proofs.Unfolding
import Polyglot.Target.Recording

/-! # Recorded scripts

A program accepts every scoped script. The program that a script leaves holds its calls block by
block, in the order of the calls. As long as there are handles for all blocks, it holds nothing
else, and unfolds to what the script describes.
-/

namespace Polyglot

open Script

namespace Order

/-- The statement that a call records. -/
def stmts (handles : Label → Handle) : Order → List Stmt
  | act _ action => [.act action]
  | enter _ scope body => [.enter scope (handles body)]
  | branch _ condition thenBody elseBody =>
    [.branch condition (handles thenBody) (handles elseBody)]
  | _ => []

/-- The declaration that a call records. -/
def decls (handles : Label → Handle) : Order → List Decl
  | model name fields => [.model name fields]
  | enumeration name values => [.enumeration name values]
  | method owner name params returns body =>
    [.method { model := owner, name, params, returns, body := handles body }]
  | _ => []

theorem stmts_congr {handles handles' : Label → Handle} {order : Order}
    (h : ∀ label ∈ order.opened, handles label = handles' label) :
    order.stmts handles = order.stmts handles' := by
  cases order <;> simp_all [stmts, opened]

theorem map_outline_stmts (tree : Handle → List (Outline Handle)) (handles : Label → Handle)
    (order : Order) : (order.stmts handles).map (Stmt.outline tree) =
      order.outline fun label => tree (handles label) := by
  cases order <;> rfl

theorem decls_congr {handles handles' : Label → Handle} {order : Order}
    (h : ∀ label ∈ order.opened, handles label = handles' label) :
    order.decls handles = order.decls handles' := by
  cases order <;> simp_all [decls, opened]

end Order

namespace Program

/-- A program with a call recorded in it, given the handles of all blocks. -/
def after (program : Program) (handles : Label → Handle) (order : Order) : Program where
  decls := program.decls ++ (order.decls handles).toArray
  blocks :=
    let blocks := program.blocks ++ (order.opened.map fun _ => #[]).toArray
    match order.block? with
    | none => blocks
    | some block => blocks.modify (handles block).index (· ++ (order.stmts handles).toArray)

theorem check_of_lt {program : Program} {block : Handle} (h : block.index < program.blocks.size) :
    check block program = .ok () program := by
  simp [check, block?, bind, EStateM.bind, h]

theorem check_of_not_lt {program : Program} {block : Handle}
    (h : ¬ block.index < program.blocks.size) :
    check block program = .error (.invalidBlock block) program := by
  simp [check, block?, bind, EStateM.bind, h]

theorem record_of_lt {program : Program} {block : Handle} (stmt : Stmt)
    (h : block.index < program.blocks.size) :
    record block stmt program = .ok () (program.addStmt block stmt) := by
  rw [record, Step.bind_of_ok (check_of_lt h), Step.modify_apply]

theorem enter_of_lt {program : Program} {block : Handle} (scope : Scope)
    (h : block.index < program.blocks.size) :
    Target.enter block scope program = .ok (.next program.blocks.size)
      (program.newBlock.2.addStmt block (.enter scope (.next program.blocks.size))) := by
  have hlt : block.index < program.newBlock.2.blocks.size := by simp [newBlock]; omega
  change (check block >>= fun _ => allocate >>= fun body =>
    record block (.enter scope body) >>= fun _ => pure body) program = _
  rw [Step.bind_of_ok (check_of_lt h), Step.bind_of_ok (rfl : allocate program = _)]
  exact Step.bind_of_ok (record_of_lt _ hlt)

theorem branch_of_lt {program : Program} {block : Handle} (condition : Value)
    (h : block.index < program.blocks.size) :
    Target.branch block condition program =
      .ok (.next program.blocks.size, .next (program.blocks.size + 1))
        (program.newBlock.2.newBlock.2.addStmt block (.branch condition
          (.next program.blocks.size) (.next (program.blocks.size + 1)))) := by
  have hlt : block.index < program.newBlock.2.newBlock.2.blocks.size := by simp [newBlock]; omega
  have hnext : program.newBlock.2.newBlock.1 = .next (program.blocks.size + 1) := by
    simp [newBlock]
  change (check block >>= fun _ => allocate >>= fun thenBody => allocate >>= fun elseBody =>
    record block (.branch condition thenBody elseBody) >>= fun _ =>
      pure (thenBody, elseBody)) program = _
  rw [Step.bind_of_ok (check_of_lt h), Step.bind_of_ok (rfl : allocate program = _),
    Step.bind_of_ok (rfl : allocate program.newBlock.2 = _), hnext]
  exact Step.bind_of_ok (record_of_lt _ hlt)

/-- A program records every call to a block of its own. -/
theorem run_eq_after {program : Program} {handles : Label → Handle} {order : Order}
    {known : List Label} (hfits : order.Fits known)
    (hblock : ∀ block ∈ order.block?, (handles block).index < program.blocks.size) :
    order.run handles program = .ok (bindAll handles program.blocks.size order.opened)
      (program.after (bindAll handles program.blocks.size order.opened) order) := by
  have hkept : ∀ block ∈ order.block?,
      bindAll handles program.blocks.size order.opened block = handles block :=
    fun block hb => bindAll_of_not_mem fun hmem => hfits.2.2 block hmem (hfits.1 block hb)
  cases order with
  | model name fields =>
    rw [Order.run, Step.bind_of_ok (rfl : Target.model name fields program = _)]
    simp [after, Order.opened, Order.block?, Order.decls, bindAll, addDecl]
  | enumeration name values =>
    rw [Order.run, Step.bind_of_ok (rfl : Target.enumeration name values program = _)]
    simp [after, Order.opened, Order.block?, Order.decls, bindAll, addDecl]
  | method owner name params returns body =>
    rw [Order.run, Step.bind_of_ok (rfl : Target.method owner name params returns program = _)]
    simp [after, Order.opened, Order.block?, Order.decls, bindAll, newBlock, addDecl]
  | act block action =>
    have hrecord : Target.act (handles block) action program = _ :=
      record_of_lt (.act action) (hblock block rfl)
    rw [Order.run, Step.bind_of_ok hrecord]
    simp [after, Order.opened, Order.block?, Order.decls, Order.stmts, bindAll, addStmt]
  | enter block scope body =>
    have hsame := hkept block rfl
    rw [Order.run, Step.bind_of_ok (enter_of_lt scope (hblock block rfl))]
    simp only [after, Order.block?, hsame]
    simp [Order.opened, Order.decls, Order.stmts, bindAll, newBlock, addStmt]
  | branch block condition thenBody elseBody =>
    have hsame := hkept block rfl
    have hne : thenBody ≠ elseBody := by
      have hdistinct := hfits.2.1
      simpa [Order.opened] using hdistinct
    rw [Order.run, Step.bind_of_ok (branch_of_lt condition (hblock block rfl))]
    simp only [after, Order.block?, hsame]
    simp [Order.opened, Order.decls, Order.stmts, bindAll, newBlock, addStmt, hne]
    rfl

theorem size_after (program : Program) (handles : Label → Handle) (order : Order) :
    (program.after handles order).blocks.size = program.blocks.size + order.opened.length := by
  cases hb : order.block? <;> simp [after, hb]

/-- A block that is there before a call gets the statement of the call, if it goes to that
block. -/
theorem getElem?_after {program : Program} (handles : Label → Handle) (order : Order) {i : Nat}
    {stmts : Array Stmt} (h : program.blocks[i]? = some stmts) :
    (program.after handles order).blocks[i]? = some (stmts ++
      (if order.block?.map (fun block => (handles block).index) = some i
        then order.stmts handles else []).toArray) := by
  have hlt : i < program.blocks.size := (Array.getElem?_eq_some_iff.mp h).1
  cases hb : order.block? with
  | none => simp [after, hb, Array.getElem?_append_left hlt, h]
  | some block =>
    simp only [after, hb, Array.getElem?_modify, Array.getElem?_append_left hlt, h]
    by_cases hi : (handles block).index = i
    · simp [hi]
    · simp [hi]

end Program

namespace Script

variable {past script : List Order} {order : Order} {handles handles' : Label → Handle}
  {program : Program} {label : Label}

theorem Scoped.fits (h : Scoped (past ++ [order])) : order.Fits (opened past) := by
  simpa [ScopedFrom] using (scopedFrom_append.mp h).2

/-- What a call records stays the same while only other blocks get handles. -/
theorem flatMap_stmts_congr (h : ∀ label ∈ opened past, handles' label = handles label)
    (label : Label) :
    (into label past).flatMap (Order.stmts handles') =
      (into label past).flatMap (Order.stmts handles) := by
  apply List.flatMap_congr
  intro earlier hearlier
  apply Order.stmts_congr
  intro inner hinner
  exact h inner (List.mem_flatMap.mpr ⟨earlier, List.mem_of_mem_filter hearlier, hinner⟩)

/-- The program holds at least what the script says. Once the handles run out, blocks are used
again, and hold more than that. -/
structure Kept (script : List Order) (handles : Label → Handle) (program : Program) : Prop where
  decls : program.decls.toList = script.flatMap (Order.decls handles)
  size : program.blocks.size = (opened script).length
  holds : ∀ {label}, label ∈ opened script → ∃ stmts, program.block? (handles label) = some stmts ∧
    ((into label script).flatMap (Order.stmts handles)).Sublist stmts.toList

theorem Kept.start (handles : Label → Handle) : Kept [] handles {} where
  decls := rfl
  size := rfl
  holds h := by simp at h

/-- Every open block has its place in the program. -/
theorem Kept.index_lt (h : Kept script handles program) (hlabel : label ∈ opened script) :
    (handles label).index < program.blocks.size := by
  obtain ⟨stmts, hblock, -⟩ := h.holds hlabel
  exact (Array.getElem?_eq_some_iff.mp hblock).1

/-- A program accepts every call that a scoped script makes next. -/
theorem Kept.run_eq (hscoped : Scoped (past ++ [order])) (h : Kept past handles program) :
    order.run handles program = .ok (bindAll handles program.blocks.size order.opened)
      (program.after (bindAll handles program.blocks.size order.opened) order) :=
  Program.run_eq_after hscoped.fits fun block hb => h.index_lt (hscoped.fits.1 block hb)

theorem Kept.step (hscoped : Scoped (past ++ [order])) (h : Kept past handles program) :
    Kept (past ++ [order]) (bindAll handles program.blocks.size order.opened)
      (program.after (bindAll handles program.blocks.size order.opened) order) := by
  have hkept : ∀ label ∈ opened past,
      bindAll handles program.blocks.size order.opened label = handles label :=
    fun label hlabel => bindAll_of_not_mem fun hmem => hscoped.fits.2.2 label hmem hlabel
  generalize hhandles : bindAll handles program.blocks.size order.opened = handles' at hkept ⊢
  refine ⟨?_, ?_, ?_⟩
  · have hpast : past.flatMap (Order.decls handles') = past.flatMap (Order.decls handles) := by
      apply List.flatMap_congr
      intro earlier hearlier
      apply Order.decls_congr
      intro label hlabel
      exact hkept label (List.mem_flatMap.mpr ⟨earlier, hearlier, hlabel⟩)
    simp [Program.after, h.decls, hpast]
  · rw [Program.size_after, h.size]
    simp
  · intro label hlabel
    rw [opened_append, opened_cons, opened_nil, List.append_nil, List.mem_append] at hlabel
    rcases hlabel with hold | hnew
    · obtain ⟨stmts, hblock, hsublist⟩ := h.holds hold
      rw [← hkept label hold] at hblock
      refine ⟨_, Program.getElem?_after handles' order hblock, ?_⟩
      rw [into_append, List.flatMap_append, flatMap_stmts_congr hkept, Array.toList_append]
      apply hsublist.append
      by_cases hb : order.block? = some label
      · simp [into, hb]
      · simp [into_cons_of_ne hb]
    · -- The block may be one that is used again, so it need not be empty.
      obtain ⟨i, hi⟩ := List.mem_iff_getElem?.mp hnew
      have hi' : i < order.opened.length := (List.getElem?_eq_some_iff.mp hi).1
      have hlt : (handles' label).index < (program.after handles' order).blocks.size := by
        rw [← hhandles, bindAll_of_getElem? hscoped.fits.2.1 hi, Program.size_after]
        have hle := Handle.index_next_le (program.blocks.size + i)
        omega
      rw [ScopedFrom.into_opened_eq_nil hscoped hnew]
      exact ⟨_, Array.getElem?_eq_getElem hlt, List.nil_sublist _⟩

/-- A program accepts every scoped script. -/
theorem Scoped.run_kept (hscoped : Scoped script) (handles : Label → Handle) :
    ∃ handles' program, run handles script ({} : Program) = .ok handles' program ∧
      Kept script handles' program := by
  refine run_progress [] ?_ (Kept.start handles)
  intro past handles program order rest hsplit h
  rw [List.nil_append] at hsplit
  subst hsplit
  rw [List.append_cons] at hscoped
  have hpast := (scopedFrom_append.mp hscoped).1
  exact ⟨_, _, h.run_eq hpast, h.step hpast⟩

theorem Scoped.kept_of_run (hscoped : Scoped script)
    (h : run handles script ({} : Program) = .ok handles' program) :
    Kept script handles' program := by
  obtain ⟨_, _, hrun, hkept⟩ := hscoped.run_kept handles
  rw [h] at hrun
  cases hrun
  exact hkept

/-! ### Room for all blocks -/

/-- The program holds what the script says, block by block, and every block has its own place. -/
structure Recorded (script : List Order) (handles : Label → Handle) (program : Program) : Prop
    extends Kept script handles program where
  blocks : ∀ {i label}, (opened script)[i]? = some label → (handles label).index = i ∧
    program.blocks[i]? = some ((into label script).flatMap (Order.stmts handles)).toArray

theorem Recorded.start (handles : Label → Handle) : Recorded [] handles {} where
  toKept := Kept.start handles
  blocks h := by simp at h

/-- Distinct labels have distinct places. -/
theorem Recorded.label_eq (h : Recorded script handles program) {first second : Label}
    (hfirst : first ∈ opened script) (hsecond : second ∈ opened script)
    (hindex : (handles first).index = (handles second).index) : first = second := by
  obtain ⟨i, hi⟩ := List.mem_iff_getElem?.mp hfirst
  obtain ⟨j, hj⟩ := List.mem_iff_getElem?.mp hsecond
  rw [(h.blocks hi).1, (h.blocks hj).1] at hindex
  rw [hindex, hj] at hi
  exact (Option.some.inj hi).symm

/-- Blocks that are open before a call get the statement of the call, if it goes to them. -/
theorem Recorded.after_old (hfits : order.Fits (opened past)) (h : Recorded past handles program)
    (hkept : ∀ label ∈ opened past, handles' label = handles label) {i : Nat}
    (hi : (opened past)[i]? = some label) :
    (program.after handles' order).blocks[i]? =
      some ((into label (past ++ [order])).flatMap (Order.stmts handles')).toArray := by
  have hlabel : label ∈ opened past := List.mem_of_getElem? hi
  obtain ⟨hindex, hold⟩ := h.blocks hi
  rw [Program.getElem?_after handles' order hold, into_append, List.flatMap_append,
    flatMap_stmts_congr hkept]
  cases hb : order.block? with
  | none => simp [into, hb]
  | some block =>
    have hopen : block ∈ opened past := hfits.1 block hb
    by_cases hsame : block = label
    · subst hsame
      simp [hindex, into, hb, hkept block hopen]
    · have hne : (handles block).index ≠ i := fun heq =>
        hsame (h.label_eq hopen hlabel (heq.trans hindex.symm))
      simp [hne, into, hb, hsame, hkept block hopen]

/-- Blocks that a call opens are empty. -/
theorem Recorded.after_new (hfits : order.Fits (opened past)) (h : Recorded past handles program)
    (hkept : ∀ label ∈ opened past, handles' label = handles label) {i : Nat}
    (hi : i < order.opened.length) :
    (program.after handles' order).blocks[program.blocks.size + i]? = some #[] := by
  cases hb : order.block? with
  | none => simp [Program.after, hb, hi]
  | some block =>
    have hopen : block ∈ opened past := hfits.1 block hb
    have hlt := h.index_lt hopen
    have hne : (handles' block).index ≠ program.blocks.size + i := by
      rw [hkept block hopen]
      omega
    simp only [Program.after, hb, Array.getElem?_modify, hne, if_false]
    simp [hi]

theorem Recorded.step (hscoped : Scoped (past ++ [order]))
    (hcount : (opened (past ++ [order])).length ≤ Handle.count)
    (h : Recorded past handles program) :
    Recorded (past ++ [order]) (bindAll handles program.blocks.size order.opened)
      (program.after (bindAll handles program.blocks.size order.opened) order) := by
  refine ⟨h.toKept.step hscoped, ?_⟩
  have hkept : ∀ label ∈ opened past,
      bindAll handles program.blocks.size order.opened label = handles label :=
    fun label hlabel => bindAll_of_not_mem fun hmem => hscoped.fits.2.2 label hmem hlabel
  generalize hhandles : bindAll handles program.blocks.size order.opened = handles' at hkept ⊢
  intro i label hi
  rw [opened_append, opened_cons, opened_nil, List.append_nil, List.getElem?_append] at hi
  split at hi
  next hlt =>
    refine ⟨?_, h.after_old hscoped.fits hkept hi⟩
    rw [hkept label (List.mem_of_getElem? hi)]
    exact (h.blocks hi).1
  next hge =>
    obtain ⟨j, rfl⟩ := Nat.exists_eq_add_of_le (Nat.le_of_not_lt hge)
    rw [Nat.add_sub_cancel_left] at hi
    have hj : j < order.opened.length := (List.getElem?_eq_some_iff.mp hi).1
    have hnil : into label (past ++ [order]) = [] :=
      ScopedFrom.into_opened_eq_nil hscoped (List.mem_of_getElem? hi)
    rw [hnil, ← h.size]
    refine ⟨?_, h.after_new hscoped.fits hkept hj⟩
    rw [← hhandles, bindAll_of_getElem? hscoped.fits.2.1 hi]
    apply Handle.index_next
    have hsize := h.size
    simp only [opened_append, List.length_append, opened_cons, opened_nil, List.append_nil]
      at hcount
    omega

/-- As long as there is room, a program records a scoped script and nothing else. -/
theorem Scoped.recorded_of_run (hscoped : Scoped script)
    (hcount : (opened script).length ≤ Handle.count)
    (h : run handles script ({} : Program) = .ok handles' program) :
    Recorded script handles' program := by
  refine run_invariant
    (fun past handles program => (opened past).length ≤ Handle.count →
      Recorded past handles program)
    ?_ [] hscoped (fun _ => Recorded.start handles) h hcount
  intro past handles program order handles' program' hpast h hrun hroom
  have hbefore : Recorded past handles program := by
    apply h
    rw [opened_append, List.length_append] at hroom
    omega
  rw [hbefore.run_eq hpast] at hrun
  cases hrun
  exact hbefore.step hpast hroom

/-! ### Unfolding -/

/-- The block of a label as an outline, one level deep. -/
theorem Recorded.unfoldBlock_succ (h : Recorded script handles program)
    (hlabel : label ∈ opened script) (depth : Nat) :
    program.unfoldBlock (depth + 1) (handles label) = (into label script).flatMap
      (Order.outline fun inner => program.unfoldBlock depth (handles inner)) := by
  obtain ⟨i, hi⟩ := List.mem_iff_getElem?.mp hlabel
  obtain ⟨hindex, hblock⟩ := h.blocks hi
  rw [← hindex] at hblock
  rw [Program.unfoldBlock_succ, Program.expand_of_some _ hblock, List.map_flatMap]
  simp only [Order.map_outline_stmts]

/-- A program unfolds to the declarations that were recorded, with their blocks. -/
theorem Kept.unfold_eq_flatMap (h : Kept script handles program) :
    program.unfold = script.flatMap
      (Order.declared fun label => program.unfoldBlock (opened script).length (handles label)) := by
  rw [Program.unfold, h.decls, List.map_flatMap, ← h.size]
  apply List.flatMap_congr
  intro order _
  cases order <;> rfl

/-- A recorded script unfolds to what it describes. -/
theorem Recorded.unfold_eq (hscoped : Scoped script) (h : Recorded script handles program) :
    program.unfold = sections script := by
  rw [h.unfold_eq_flatMap, hscoped.sections_eq]
  apply List.flatMap_congr
  intro order horder
  apply Order.declared_congr
  intro label hlabel
  have hbodies := congruence_eq.bodies hscoped
    (fun label hlabel depth => (h.unfoldBlock_succ hlabel depth).symm)
    (List.mem_flatMap.mpr ⟨order, horder, hlabel⟩)
  exact hbodies.symm

end Script

end Polyglot
