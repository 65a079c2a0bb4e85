import Polyglot.Document.Members
import Polyglot.Proofs.Document.Growth

/-! # Owners and contents

What can be seen of a block: the model to whose methods it belongs, and its entries. Appending and
moving entries and adding blocks are described by what they do to these two. Moving entries out of
a block commutes with everything that happens elsewhere.
-/

namespace Polyglot.Document

variable {document : Document} {handle other source target : Handle}

/-- The model to whose methods a block belongs, if there is such a block and such a model. -/
def ownerAt (document : Document) (handle : Handle) : Option String :=
  (document.blocks[handle.index]?).bind Block.owner

/-- The contents of a block; a block that is not there has none. -/
def contents (document : Document) (handle : Handle) : List Entry :=
  (document.blocks[handle.index]?).elim [] fun block => block.entries.toList

/-- A document with one of its blocks emptied. -/
def clear (document : Document) (handle : Handle) : Document where
  blocks := document.blocks.modify handle.index fun block => { block with entries := #[] }

/-- A document with the entries of one block moved to the end of another. -/
def move (document : Document) (source target : Handle) : Document :=
  (document.clear source).append target (document.contents source)

/-- A document with the entries of blocks moved to the ends of others, one pair after the other. -/
def moveEach (document : Document) (pairs : List (Handle × Handle)) : Document :=
  pairs.foldl (fun document pair => document.move pair.1 pair.2) document

theorem contents_of_find {block : Block} (h : document.blocks[handle.index]? = some block) :
    document.contents handle = block.entries.toList := by
  rw [contents, h]
  rfl

/-- At the beginning there is only the root, which belongs to no method. -/
theorem ownerAt_start (handle : Handle) : ({} : Document).ownerAt handle = none := by
  simp only [ownerAt, List.getElem?_toArray, List.getElem?_singleton]
  split <;> rfl

/-- Whether a block is there, and to whom it belongs, decides what a search for its owner gives. -/
theorem ownerOf_congr {document' : Document} (hsize : document'.blocks.size = document.blocks.size)
    (howner : document'.ownerAt handle = document.ownerAt handle) :
    document'.ownerOf handle = document.ownerOf handle := by
  by_cases hlt : handle.index < document.blocks.size
  · have hfind := Array.getElem?_eq_getElem hlt
    have hfind' := Array.getElem?_eq_getElem (hsize.symm ▸ hlt)
    rw [ownerAt, ownerAt, hfind, hfind', Option.bind_some, Option.bind_some] at howner
    rw [ownerOf_of_find hfind, ownerOf_of_find hfind', howner]
  · have hnone : document.blocks[handle.index]? = none := Array.getElem?_eq_none (by omega)
    have hnone' : document'.blocks[handle.index]? = none := Array.getElem?_eq_none (by omega)
    rw [ownerOf, ownerOf, blockAt, blockAt, hnone, hnone']

/-! ### Appending -/

@[simp] theorem ownerAt_append (entries : List Entry) :
    (document.append handle entries).ownerAt other = document.ownerAt other := by
  rw [ownerAt, ownerAt, append, Array.getElem?_modify]
  split
  · cases document.blocks[other.index]? <;> rfl
  · rfl

theorem contents_append_self (h : handle.index < document.blocks.size) (entries : List Entry) :
    (document.append handle entries).contents handle = document.contents handle ++ entries := by
  have hfind := Array.getElem?_eq_getElem h
  rw [contents, contents, find_append hfind, hfind]
  simp

theorem contents_append_of_ne (h : other ≠ handle) (entries : List Entry) :
    (document.append handle entries).contents other = document.contents other := by
  have hindex : handle.index ≠ other.index := fun heq => h (Handle.index_inj heq.symm)
  rw [contents, contents, append, Array.getElem?_modify, if_neg hindex]

/-! ### Further blocks -/

theorem ownerAt_extend_of_lt (h : handle.index < document.blocks.size) (news : List Block) :
    (document.extend news).ownerAt handle = document.ownerAt handle := by
  rw [ownerAt, ownerAt, find_extend (Array.getElem?_eq_getElem h), Array.getElem?_eq_getElem h]

theorem contents_extend_of_lt (h : handle.index < document.blocks.size) (news : List Block) :
    (document.extend news).contents handle = document.contents handle := by
  rw [contents, contents, find_extend (Array.getElem?_eq_getElem h), Array.getElem?_eq_getElem h]

theorem find_extend_new {i : Nat} (h : document.blocks.size ≤ i) (news : List Block) :
    (document.extend news).blocks[i]? = news[i - document.blocks.size]? := by
  simp [extend, Array.getElem?_append, Nat.not_lt.mpr h]

/-! ### Moving -/

@[simp] theorem size_clear : (document.clear handle).blocks.size = document.blocks.size := by
  simp [clear]

@[simp] theorem ownerAt_clear : (document.clear handle).ownerAt other = document.ownerAt other := by
  rw [ownerAt, ownerAt, clear, Array.getElem?_modify]
  split
  · cases document.blocks[other.index]? <;> rfl
  · rfl

@[simp] theorem contents_clear_self : (document.clear handle).contents handle = [] := by
  rw [contents, clear, Array.getElem?_modify, if_pos rfl]
  cases document.blocks[handle.index]? <;> rfl

theorem contents_clear_of_ne (h : other ≠ handle) :
    (document.clear handle).contents other = document.contents other := by
  have hindex : handle.index ≠ other.index := fun heq => h (Handle.index_inj heq.symm)
  rw [contents, contents, clear, Array.getElem?_modify, if_neg hindex]

@[simp] theorem size_move : (document.move source target).blocks.size = document.blocks.size := by
  simp [move]

@[simp] theorem ownerAt_move :
    (document.move source target).ownerAt handle = document.ownerAt handle := by
  simp [move]

theorem contents_move_of_ne (hsource : handle ≠ source) (htarget : handle ≠ target) :
    (document.move source target).contents handle = document.contents handle := by
  rw [move, contents_append_of_ne htarget, contents_clear_of_ne hsource]

/-- Entries may be appended elsewhere before or after others are moved. -/
theorem move_append (hsource : handle ≠ source) (htarget : handle ≠ target)
    (entries : List Entry) : (document.append handle entries).move source target =
      (document.move source target).append handle entries := by
  have hsourceIndex : handle.index ≠ source.index := fun heq => hsource (Handle.index_inj heq)
  have htargetIndex : handle.index ≠ target.index := fun heq => htarget (Handle.index_inj heq)
  rw [move, move, contents_append_of_ne hsource.symm]
  simp only [append, clear, mk.injEq]
  apply Array.ext_getElem?
  intro i
  simp only [Array.getElem?_modify]
  by_cases hi : handle.index = i
  · subst hi
    simp [hsourceIndex.symm, htargetIndex.symm]
  · simp [hi]

/-- Blocks may be added before or after entries are moved between others. -/
theorem move_extend (hsource : source.index < document.blocks.size)
    (htarget : target.index < document.blocks.size) (news : List Block) :
    (document.extend news).move source target = (document.move source target).extend news := by
  have hclear : (document.extend news).clear source = (document.clear source).extend news := by
    simp only [clear, extend, mk.injEq]
    apply Array.ext_getElem?
    intro i
    simp only [Array.getElem?_modify, Array.getElem?_append, Array.size_modify]
    split <;> split <;> first | rfl | omega
  rw [move, move, contents_extend_of_lt hsource, hclear, append_extend (by simpa using htarget)]

section
variable {pairs : List (Handle × Handle)}

@[simp] theorem moveEach_nil : document.moveEach [] = document := rfl

@[simp] theorem moveEach_cons (pair : Handle × Handle) (rest : List (Handle × Handle)) :
    document.moveEach (pair :: rest) = (document.move pair.1 pair.2).moveEach rest := rfl

theorem moveEach_append (first second : List (Handle × Handle)) :
    document.moveEach (first ++ second) = (document.moveEach first).moveEach second :=
  List.foldl_append

@[simp] theorem size_moveEach :
    (document.moveEach pairs).blocks.size = document.blocks.size := by
  induction pairs generalizing document with
  | nil => rfl
  | cons pair rest ih => rw [moveEach_cons, ih, size_move]

@[simp] theorem ownerAt_moveEach :
    (document.moveEach pairs).ownerAt handle = document.ownerAt handle := by
  induction pairs generalizing document with
  | nil => rfl
  | cons pair rest ih => rw [moveEach_cons, ih, ownerAt_move]

theorem contents_moveEach (h : ∀ pair ∈ pairs, handle ≠ pair.1 ∧ handle ≠ pair.2) :
    (document.moveEach pairs).contents handle = document.contents handle := by
  induction pairs generalizing document with
  | nil => rfl
  | cons pair rest ih =>
    obtain ⟨hsource, htarget⟩ := h pair List.mem_cons_self
    rw [moveEach_cons, ih fun other hother => h other (List.mem_cons_of_mem _ hother),
      contents_move_of_ne hsource htarget]

theorem moveEach_append_entries (h : ∀ pair ∈ pairs, handle ≠ pair.1 ∧ handle ≠ pair.2)
    (entries : List Entry) : (document.append handle entries).moveEach pairs =
      (document.moveEach pairs).append handle entries := by
  induction pairs generalizing document with
  | nil => rfl
  | cons pair rest ih =>
    obtain ⟨hsource, htarget⟩ := h pair List.mem_cons_self
    rw [moveEach_cons, moveEach_cons, move_append hsource htarget,
      ih fun other hother => h other (List.mem_cons_of_mem _ hother)]

theorem moveEach_extend (h : ∀ pair ∈ pairs, pair.1.index < document.blocks.size ∧
      pair.2.index < document.blocks.size) (news : List Block) :
    (document.extend news).moveEach pairs = (document.moveEach pairs).extend news := by
  induction pairs generalizing document with
  | nil => rfl
  | cons pair rest ih =>
    obtain ⟨hsource, htarget⟩ := h pair List.mem_cons_self
    rw [moveEach_cons, moveEach_cons, move_extend hsource htarget]
    apply ih
    intro other hother
    rw [size_move]
    exact h other (List.mem_cons_of_mem _ hother)

theorem takeAll_of_lt (h : handle.index < document.blocks.size) : takeAll handle document =
    .ok (document.contents handle).toArray (document.clear handle) := by
  have hfind := Array.getElem?_eq_getElem h
  rw [takeAll, Step.bind_of_ok (Step.get_apply document), blockAt_of_find hfind,
    contents_of_find hfind, Array.toArray_toList]
  exact Step.bind_of_ok (update_of_lt _ h)

/-- A move between blocks that are there happens before the others. -/
theorem moveAll_cons_of_lt (hsource : source.index < document.blocks.size)
    (htarget : target.index < document.blocks.size) :
    moveAll ((source, target) :: pairs) document = moveAll pairs (document.move source target) := by
  have hadd : addAll target (document.contents source).toArray (document.clear source) =
      .ok () (document.move source target) := update_of_lt _ (by simpa using htarget)
  rw [moveAll, Step.bind_of_ok (takeAll_of_lt hsource), Step.bind_of_ok hadd]

/-- Moving between blocks that are there succeeds. -/
theorem moveAll_eq_moveEach (h : ∀ pair ∈ pairs, pair.1.index < document.blocks.size ∧
      pair.2.index < document.blocks.size) :
    moveAll pairs document = .ok () (document.moveEach pairs) := by
  induction pairs generalizing document with
  | nil => rfl
  | cons pair rest ih =>
    obtain ⟨hsource, htarget⟩ := h pair List.mem_cons_self
    rw [moveAll_cons_of_lt hsource htarget, moveEach_cons]
    apply ih
    intro other hother
    rw [size_move]
    exact h other (List.mem_cons_of_mem _ hother)

end

end Polyglot.Document
