import Mathlib.Data.List.Nodup
import Polyglot.Proofs.Document.Printing
import Polyglot.Proofs.Document.Views
import Polyglot.Proofs.Table

/-! # Forests

A document is a forest if its blocks refer to blocks that are there, to each of them at most once
and never to the root, and if no block is nested in itself. Emitting a forest comes to an end
without a fault, and goes into each block at most once.
-/

namespace Polyglot

/-- The block that an entry refers to. -/
def Entry.child? : Entry → Option Handle
  | line _ => none
  | block handle => some handle

/-- The text of an entry that is a line. -/
def Entry.text? : Entry → Option String
  | line text => some text
  | block _ => none

namespace Document

open Relation

/-- The blocks that entries refer to, in order. -/
def children (entries : List Entry) : List Handle :=
  entries.filterMap Entry.child?

@[simp] theorem children_nil : children [] = [] := rfl

@[simp] theorem children_line (text : String) (rest : List Entry) :
    children (.line text :: rest) = children rest := rfl

@[simp] theorem children_block (handle : Handle) (rest : List Entry) :
    children (.block handle :: rest) = handle :: children rest := rfl

@[simp] theorem children_append (first second : List Entry) :
    children (first ++ second) = children first ++ children second :=
  List.filterMap_append

/-- All blocks that are referred to, as often as that is, block by block. -/
def targets (document : Document) : List Handle :=
  document.blocks.toList.flatMap fun block => children block.entries.toList

/-- An entry of the outer block refers to the inner one. -/
def RefersTo (document : Document) (outer inner : Handle) : Prop :=
  inner ∈ children (document.contents outer)

/-- References lead to blocks that are there, to each at most once and never to the root, and no
block is nested in itself. -/
structure Forest (document : Document) : Prop where
  allocated : ∀ handle ∈ document.targets, handle.index < document.blocks.size
  once : document.targets.Nodup
  root : Handle.root ∉ document.targets
  acyclic : ∀ handle, ¬ TransGen document.RefersTo handle handle

variable {document : Document} {outer inner handle : Handle}

theorem mem_targets_iff : inner ∈ document.targets ↔
    ∃ (i : Nat) (block : Block), document.blocks[i]? = some block ∧
      inner ∈ children block.entries.toList := by
  constructor
  · intro h
    obtain ⟨block, hblock, hinner⟩ := List.mem_flatMap.mp h
    obtain ⟨i, hi⟩ := List.mem_iff_getElem?.mp hblock
    exact ⟨i, block, by simpa using hi, hinner⟩
  · rintro ⟨i, block, hblock, hinner⟩
    apply List.mem_flatMap.mpr
    exact ⟨block, List.mem_of_getElem? (by simpa using hblock), hinner⟩

theorem RefersTo.exists_find (h : document.RefersTo outer inner) :
    ∃ block, document.blocks[outer.index]? = some block ∧
      inner ∈ children block.entries.toList := by
  cases hfind : document.blocks[outer.index]? with
  | none => simp [RefersTo, contents, hfind, children] at h
  | some block =>
    rw [RefersTo, contents_of_find hfind] at h
    exact ⟨block, rfl, h⟩

theorem RefersTo.mem_targets (h : document.RefersTo outer inner) : inner ∈ document.targets := by
  obtain ⟨block, hfind, hinner⟩ := h.exists_find
  exact mem_targets_iff.mpr ⟨outer.index, block, hfind, hinner⟩

namespace Forest

/-- A block is nested in one block only. -/
theorem outer_unique (h : document.Forest) {other : Handle} (hfirst : document.RefersTo outer inner)
    (hsecond : document.RefersTo other inner) : outer = other := by
  obtain ⟨block, hblock, hinner⟩ := hfirst.exists_find
  obtain ⟨block', hblock', hinner'⟩ := hsecond.exists_find
  obtain ⟨hi, rfl⟩ := Array.getElem?_eq_some_iff.mp hblock
  obtain ⟨hj, rfl⟩ := Array.getElem?_eq_some_iff.mp hblock'
  apply Handle.index_inj
  by_contra hne
  have hapart := (List.nodup_flatMap.mp h.once).2
  rw [List.pairwise_iff_getElem] at hapart
  rcases Nat.lt_or_gt_of_ne hne with hlt | hgt
  · exact hapart outer.index other.index (by simpa) (by simpa) hlt hinner hinner'
  · exact hapart other.index outer.index (by simpa) (by simpa) hgt hinner' hinner

theorem nodup_children (h : document.Forest) (handle : Handle) :
    (children (document.contents handle)).Nodup := by
  cases hfind : document.blocks[handle.index]? with
  | none => simp [contents, hfind, children]
  | some block =>
    rw [contents_of_find hfind]
    apply (List.nodup_flatMap.mp h.once).1
    exact List.mem_of_getElem? (by simpa using hfind)

/-- Of two blocks that stand in the same one, neither is nested in the other. -/
theorem not_nested (h : document.Forest) {first second : Handle}
    (hfirst : document.RefersTo outer first) (hsecond : document.RefersTo outer second)
    (hne : first ≠ second) : ¬ ReflTransGen document.RefersTo first second := by
  intro hpath
  rcases hpath.cases_tail with heq | ⟨last, hpath, hlast⟩
  · exact hne heq.symm
  · rw [h.outer_unique hlast hsecond] at hpath
    exact h.acyclic outer (TransGen.head' hfirst hpath)

/-- What goes down from a block to the blocks in it comes to an end before it has gone as deep as
there are blocks. -/
theorem descend (h : document.Forest) {P : Nat → Handle → Prop}
    (hstep : ∀ depth handle, handle.index < document.blocks.size →
      (∀ inner, document.RefersTo handle inner → P depth inner) → P (depth + 1) handle)
    {depth : Nat} (hdepth : document.blocks.size ≤ depth)
    (hhandle : handle.index < document.blocks.size) : P depth handle := by
  -- The blocks gone through, innermost first: there can be no more of them than blocks.
  suffices hall : ∀ depth handle (above : List Handle),
      List.IsChain (Function.swap document.RefersTo) (handle :: above) →
      (∀ other ∈ handle :: above, other.index < document.blocks.size) →
      document.blocks.size ≤ depth + above.length → P depth handle by
    exact hall depth handle [] (.singleton handle) (by simpa using hhandle) (by simpa using hdepth)
  intro depth
  induction depth with
  | zero =>
    intro handle above hchain hblocks hsize
    have hacyclic : ∀ handle, ¬ TransGen (Function.swap document.RefersTo) handle handle := by
      intro handle hcycle
      exact h.acyclic handle (transGen_swap.mp hcycle)
    have hlength := Handle.length_le_of_isChain hacyclic hchain hblocks
    rw [List.length_cons] at hlength
    omega
  | succ depth ih =>
    intro handle above hchain hblocks hsize
    apply hstep depth handle (hblocks handle List.mem_cons_self)
    intro inner hinner
    apply ih inner (handle :: above) (.cons_cons hinner hchain)
    · intro other hother
      rcases List.mem_cons.mp hother with rfl | hother
      · exact h.allocated other hinner.mem_targets
      · exact hblocks other hother
    · rw [List.length_cons]
      omega

end Forest

/-! ### Visits -/

/-- The blocks that emission goes into, in order, beginning with the given one. -/
def visitsOf (document : Document) : (depth : Nat) → Handle → List Handle
  | 0, handle => [handle]
  | depth + 1, handle =>
    handle :: (children (document.contents handle)).flatMap (document.visitsOf depth)

/-- The blocks that the emission of the document goes into. -/
def visits (document : Document) : List Handle :=
  document.visitsOf document.blocks.size .root

theorem nested_of_mem_visitsOf {depth : Nat} (h : inner ∈ document.visitsOf depth outer) :
    ReflTransGen document.RefersTo outer inner := by
  induction depth generalizing outer with
  | zero =>
    rw [visitsOf, List.mem_singleton] at h
    rw [h]
  | succ depth ih =>
    rw [visitsOf, List.mem_cons, List.mem_flatMap] at h
    rcases h with rfl | ⟨child, hchild, hinner⟩
    · exact .refl
    · exact .head hchild (ih hinner)

/-- Emission goes into no block twice. -/
theorem Forest.nodup_visitsOf (h : document.Forest) {depth : Nat}
    (hdepth : document.blocks.size ≤ depth) (hhandle : handle.index < document.blocks.size) :
    (document.visitsOf depth handle).Nodup := by
  apply h.descend (P := fun depth handle => (document.visitsOf depth handle).Nodup) _ hdepth hhandle
  intro depth handle _ ih
  rw [visitsOf, List.nodup_cons, List.nodup_flatMap]
  refine ⟨?_, ih, ?_⟩
  · intro hmem
    obtain ⟨child, hchild, hback⟩ := List.mem_flatMap.mp hmem
    exact h.acyclic handle (TransGen.head' hchild (nested_of_mem_visitsOf hback))
  · apply (h.nodup_children handle).pairwise_of_forall_ne
    intro first hfirst second hsecond hne other hother hother'
    -- Both lead to the same block, so one of them is nested in the other.
    have hunique : Relator.RightUnique (Function.swap document.RefersTo) :=
      fun _ _ _ hfirst hsecond => h.outer_unique hfirst hsecond
    have hup := reflTransGen_swap.mpr (nested_of_mem_visitsOf hother)
    have hup' := reflTransGen_swap.mpr (nested_of_mem_visitsOf hother')
    rcases ReflTransGen.total_of_right_unique hunique hup hup' with hpath | hpath
    · exact h.not_nested hsecond hfirst hne.symm (reflTransGen_swap.mp hpath)
    · exact h.not_nested hfirst hsecond hne (reflTransGen_swap.mp hpath)

/-! ### Emission -/

/-- Emitting a block gives the lines. -/
def Emits (document : Document) (depth level : Nat) (handle : Handle) (lines : List Line) : Prop :=
  ∀ (ε : Type) [Sink ε] (sink : ε),
    document.emitBlock depth level handle sink = .ok () (Line.putAll sink lines)

/-- The lines that stand in a block itself. -/
def textsAt (document : Document) (handle : Handle) : List String :=
  (document.contents handle).filterMap Entry.text?

/-- Entries whose blocks are emitted give the lines of the entries, with those of the blocks. -/
theorem prints_of_emits {depth : Nat} (level : Nat) (entries : List Entry)
    (h : ∀ child ∈ children entries, ∃ lines, document.Emits depth (level + 1) child lines ∧
      (lines.map Line.text).Perm ((document.visitsOf depth child).flatMap document.textsAt)) :
    ∃ lines, document.Prints depth level entries lines ∧
      (lines.map Line.text).Perm (entries.filterMap Entry.text? ++
        ((children entries).flatMap (document.visitsOf depth)).flatMap document.textsAt) := by
  induction entries with
  | nil => exact ⟨[], .nil, .refl _⟩
  | cons entry rest ih =>
    cases entry with
    | line text =>
      obtain ⟨lines, hprints, hperm⟩ := ih h
      exact ⟨_, hprints.line text, hperm.cons text⟩
    | block child =>
      obtain ⟨inner, hinner, hinnerPerm⟩ := h child List.mem_cons_self
      obtain ⟨lines, hprints, hperm⟩ :=
        ih fun other hother => h other (List.mem_cons_of_mem _ hother)
      refine ⟨inner ++ lines, hprints.nested hinner, ?_⟩
      rw [List.map_append, children_block, List.flatMap_cons, List.flatMap_append]
      exact (hinnerPerm.append hperm).trans (List.perm_append_comm_assoc ..)

namespace Forest

/-- The emission of a block gives the lines of all blocks that it goes into. -/
theorem emits (h : document.Forest) {depth : Nat} (hdepth : document.blocks.size ≤ depth)
    (hhandle : handle.index < document.blocks.size) (level : Nat) :
    ∃ lines, document.Emits depth level handle lines ∧
      (lines.map Line.text).Perm ((document.visitsOf depth handle).flatMap document.textsAt) := by
  revert level
  apply h.descend (P := fun depth handle => ∀ level, ∃ lines,
    document.Emits depth level handle lines ∧
      (lines.map Line.text).Perm ((document.visitsOf depth handle).flatMap document.textsAt))
    _ hdepth hhandle
  intro depth handle hlt ih level
  have hfind := Array.getElem?_eq_getElem hlt
  obtain ⟨lines, hprints, hperm⟩ := prints_of_emits level (document.contents handle)
    fun child hchild => ih child hchild (level + 1)
  refine ⟨lines, ?_, ?_⟩
  · intro ε _ sink
    rw [emitBlock_of_find hfind, ← contents_of_find hfind]
    exact hprints ε sink
  · rw [visitsOf, List.flatMap_cons]
    exact hperm

/-- To allow for more depth than there are blocks makes no difference. -/
theorem layoutOf_eq (h : document.Forest) {depth : Nat} (hdepth : document.blocks.size ≤ depth)
    (hhandle : handle.index < document.blocks.size) (more : Nat) :
    document.layoutOf (depth + more) handle = document.layoutOf depth handle := by
  apply h.descend
    (P := fun depth handle =>
      document.layoutOf (depth + more) handle = document.layoutOf depth handle)
    _ hdepth hhandle
  intro depth handle hlt ih
  have hfind := Array.getElem?_eq_getElem hlt
  rw [Nat.add_right_comm, layoutOf, layoutOf, hfind]
  apply List.map_congr_left
  intro entry hentry
  cases entry with
  | line text => rfl
  | block child =>
    have hchild : document.RefersTo handle child := by
      rw [RefersTo, contents_of_find hfind]
      exact List.mem_filterMap.mpr ⟨.block child, hentry, rfl⟩
    exact congrArg Layout.nested (ih child hchild)

/-- The emission of a forest is not cut short by the bound on its depth. -/
theorem emitBlock_eq (h : document.Forest) {depth : Nat} (hdepth : document.blocks.size ≤ depth)
    (hhandle : handle.index < document.blocks.size) (level : Nat) {ε : Type} [Sink ε] :
    (document.emitBlock depth level handle : Step ε Unit) =
      document.emitBlock document.blocks.size level handle := by
  obtain ⟨more, rfl⟩ := Nat.exists_eq_add_of_le hdepth
  rw [emitBlock_eq_emitAll, emitBlock_eq_emitAll, h.layoutOf_eq (Nat.le_refl _) hhandle]

/-- A forest can be rendered. -/
theorem exists_renderAfter (h : document.Forest) (hroot : Handle.root.index < document.blocks.size)
    (heading : Buffer) : ∃ text, document.renderAfter heading = .ok text := by
  obtain ⟨lines, hemits, -⟩ := h.emits (Nat.le_refl _) hroot 0
  refine ⟨(Line.putAll heading lines).text, ?_⟩
  rw [renderAfter, emit, hemits Buffer heading]

end Forest

end Document

end Polyglot
