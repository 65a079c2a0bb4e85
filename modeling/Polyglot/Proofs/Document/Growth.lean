import Polyglot.Document.Basic
import Polyglot.Proofs.Step

/-! # Growth of documents

While a file is written, its document changes in two ways only: entries are appended to a block,
and blocks are added to the table. The two commute, so that whatever a step does can be said in
one line: first what is appended, then what is added.
-/

namespace Polyglot

namespace Document

/-- A document with entries appended to one of its blocks. -/
def append (document : Document) (handle : Handle) (entries : List Entry) : Document where
  blocks := document.blocks.modify handle.index fun block =>
    { block with entries := block.entries ++ entries.toArray }

/-- A document with further blocks. -/
def extend (document : Document) (news : List Block) : Document where
  blocks := document.blocks ++ news.toArray

variable {document : Document} {handle : Handle} {block : Block}

@[simp] theorem size_append (entries : List Entry) :
    (document.append handle entries).blocks.size = document.blocks.size := by
  simp [append]

@[simp] theorem size_extend (news : List Block) :
    (document.extend news).blocks.size = document.blocks.size + news.length := by
  simp [extend]

@[simp] theorem append_nil : document.append handle [] = document := by
  cases document
  simp only [append, mk.injEq]
  apply Array.ext_getElem?
  intro i
  simp [Array.getElem?_modify]

@[simp] theorem extend_nil : document.extend [] = document := by
  simp [extend]

@[simp] theorem append_append (first second : List Entry) :
    (document.append handle first).append handle second =
      document.append handle (first ++ second) := by
  simp only [append, mk.injEq]
  apply Array.ext_getElem?
  intro i
  simp only [Array.getElem?_modify]
  split <;> simp [Function.comp_def]

@[simp] theorem extend_extend (first second : List Block) :
    (document.extend first).extend second = document.extend (first ++ second) := by
  simp [extend]

/-- Appending to a block that was there before further ones were added. -/
theorem append_extend (h : handle.index < document.blocks.size) (news : List Block)
    (entries : List Entry) :
    (document.extend news).append handle entries =
      (document.append handle entries).extend news := by
  simp only [append, extend, mk.injEq]
  apply Array.ext_getElem?
  intro i
  simp only [Array.getElem?_modify, Array.getElem?_append, Array.size_modify]
  split <;> split <;> first | rfl | omega

/-- Appending to the block that was added last. -/
theorem append_extend_next (h : document.blocks.size < Handle.count) (entries : List Entry) :
    (document.extend [block]).append (.next document.blocks.size) entries =
      document.extend [{ block with entries := block.entries ++ entries.toArray }] := by
  simp only [append, extend, mk.injEq, Handle.index_next h]
  apply Array.ext_getElem?
  intro i
  rw [Array.getElem?_modify]
  by_cases hi : document.blocks.size = i
  · subst hi
    simp
  · simp only [Array.getElem?_append, hi, if_false]
    split
    · rfl
    · have hpos : ∃ j, i - document.blocks.size = j + 1 := ⟨i - document.blocks.size - 1, by omega⟩
      obtain ⟨j, hj⟩ := hpos
      simp [hj]

theorem find_append (h : document.blocks[handle.index]? = some block) (entries : List Entry) :
    (document.append handle entries).blocks[handle.index]? =
      some { block with entries := block.entries ++ entries.toArray } := by
  simp [append, Array.getElem?_modify, h]

theorem find_extend {i : Nat} (h : document.blocks[i]? = some block) (news : List Block) :
    (document.extend news).blocks[i]? = some block := by
  have hlt : i < document.blocks.size := (Array.getElem?_eq_some_iff.mp h).1
  simpa only [extend, Array.getElem?_append, hlt, if_true] using h

/-! ### Steps -/

theorem addLine_of_lt (h : handle.index < document.blocks.size) (text : String) :
    addLine handle text document = .ok () (document.append handle [.line text]) := by
  simp [addLine, update_of_lt _ h, append]

theorem addLines_of_lt (h : handle.index < document.blocks.size) (texts : List String) :
    addLines handle texts document = .ok () (document.append handle (texts.map .line)) := by
  induction texts generalizing document with
  | nil => simp [addLines]
  | cons text rest ih =>
    rw [addLines, Step.bind_of_ok (addLine_of_lt h text), ih (by simpa using h)]
    simp

theorem newBlock_eq_extend (document : Document) (owner : Option String) :
    newBlock owner document = .ok (.next document.blocks.size) (document.extend [{ owner }]) := by
  simp [newBlock, extend]

theorem blockAt_of_find (h : document.blocks[handle.index]? = some block) :
    document.blockAt handle = .ok block := by
  simp [blockAt, h]

theorem ownerOf_of_find (h : document.blocks[handle.index]? = some block) :
    document.ownerOf handle = .ok block.owner := by
  simp [ownerOf, blockAt_of_find h, bind, Except.bind, pure, Except.pure]

theorem isEmptyAt_of_find (h : document.blocks[handle.index]? = some block) :
    document.isEmptyAt handle = .ok block.entries.isEmpty := by
  simp [isEmptyAt, blockAt_of_find h, bind, Except.bind, pure, Except.pure]

theorem newBlockIn_of_find (h : document.blocks[handle.index]? = some block) :
    newBlockIn handle document =
      .ok (.next document.blocks.size) (document.extend [{ owner := block.owner }]) := by
  rw [newBlockIn, Step.bind_of_ok (Step.get_apply document), ownerOf_of_find h]
  exact newBlock_eq_extend document block.owner

theorem addBlock_of_lt {child : Handle} (h : handle.index < document.blocks.size)
    (hchild : child.index < document.blocks.size) :
    addBlock handle child document = .ok () (document.append handle [.block child]) := by
  have hfind : document.blocks[child.index]? = some document.blocks[child.index] :=
    Array.getElem?_eq_getElem hchild
  rw [addBlock, Step.bind_of_ok (Step.get_apply document), blockAt_of_find hfind]
  change update _ _ document = _
  simp [update_of_lt _ h, append]

/-- A scope shows a new block between its header and its footer. -/
theorem openScope_of_find (h : document.blocks[handle.index]? = some block)
    (header footer : String) :
    openScope handle header footer document = .ok (.next document.blocks.size)
      ((document.append handle
        [.line header, .block (.next document.blocks.size), .line footer]).extend
          [{ owner := block.owner }]) := by
  have hlt : handle.index < document.blocks.size := (Array.getElem?_eq_some_iff.mp h).1
  have hnext := Handle.index_next_le document.blocks.size
  have hheader := addLine_of_lt hlt header
  have hnew := newBlockIn_of_find (find_append h [.line header])
  rw [size_append] at hnew
  rw [openScope, Step.bind_of_ok hheader, Step.bind_of_ok hnew,
    Step.bind_of_ok (addBlock_of_lt (by simp; omega) (by simp; omega)),
    Step.bind_of_ok (addLine_of_lt (by simp; omega) footer), Step.pure_apply,
    append_extend (by simpa using hlt), append_extend (by simpa using hlt)]
  simp

/-- Two scopes are shown one after the other. -/
theorem openScopes_of_find (h : document.blocks[handle.index]? = some block)
    (header divider footer : String) :
    openScopes handle header divider footer document =
      .ok (.next document.blocks.size, .next (document.blocks.size + 1))
        ((document.append handle
          [.line header, .block (.next document.blocks.size), .line divider,
            .block (.next (document.blocks.size + 1)), .line footer]).extend
          [{ owner := block.owner }, { owner := block.owner }]) := by
  have hlt : handle.index < document.blocks.size := (Array.getElem?_eq_some_iff.mp h).1
  have hfirst := openScope_of_find h header divider
  have hnext := Handle.index_next_le (document.blocks.size + 1)
  have hnew := newBlockIn_of_find (find_extend (find_append h
    [.line header, .block (.next document.blocks.size), .line divider])
      [{ owner := block.owner }])
  simp only [size_extend, size_append, List.length_singleton] at hnew
  rw [openScopes, Step.bind_of_ok hfirst, Step.bind_of_ok hnew,
    Step.bind_of_ok (addBlock_of_lt (by simp; omega) (by simp; omega)),
    Step.bind_of_ok (addLine_of_lt (by simp; omega) footer), Step.pure_apply, extend_extend,
    append_extend (by simpa using hlt), append_extend (by simpa using hlt)]
  simp

theorem place_of_lt {body : Handle} (h : body.index < document.blocks.size)
    (header footer : String) :
    place header body footer document =
      .ok () (document.append .root [.line header, .block body, .line footer]) := by
  have hroot : Handle.root.index < document.blocks.size := Nat.lt_of_le_of_lt (Nat.zero_le _) h
  rw [place, Step.bind_of_ok (addLine_of_lt hroot header),
    Step.bind_of_ok (addBlock_of_lt (by simpa using hroot) (by simpa using h)),
    addLine_of_lt (by simpa using hroot) footer]
  simp

/-- The blank line before a further declaration. -/
def separator (entries : List Entry) : List Entry :=
  if entries = [] then [] else [.line ""]

theorem separate_of_find (h : document.blocks[Handle.root.index]? = some block) :
    separate document = .ok () (document.append .root (separator block.entries.toList)) := by
  have hlt : Handle.root.index < document.blocks.size := (Array.getElem?_eq_some_iff.mp h).1
  rw [separate, Step.bind_of_ok (Step.get_apply document), isEmptyAt_of_find h]
  change (if block.entries.isEmpty then pure () else addLine .root "") document = _
  by_cases hnil : block.entries = #[]
  · simp [separator, hnil]
  · simp [separator, hnil, addLine_of_lt hlt]

/-- A new block that begins with some lines. -/
theorem newBlock_addLines (h : document.blocks.size < Handle.count) (texts : List String) {α : Type}
    (next : Handle → Step Document α) :
    (newBlock none >>= fun body => addLines body texts >>= fun _ => next body) document =
      next (.next document.blocks.size)
        (document.extend [{ entries := (texts.map .line).toArray }]) := by
  have hlt : (Handle.next document.blocks.size).index <
      (document.extend [{ owner := none }]).blocks.size := by
    rw [Handle.index_next h]
    simp
  rw [Step.bind_of_ok (newBlock_eq_extend _ none), Step.bind_of_ok (addLines_of_lt hlt texts),
    append_extend_next h]
  simp

theorem separate_extend (h : document.blocks[Handle.root.index]? = some block) (news : List Block) :
    separate (document.extend news) =
      .ok () ((document.append .root (separator block.entries.toList)).extend news) := by
  have hlt : Handle.root.index < document.blocks.size := (Array.getElem?_eq_some_iff.mp h).1
  rw [separate_of_find (find_extend h news), append_extend hlt]

/-- The block of a further declaration, before it is shown. -/
theorem newBlock_separate (hlt : document.blocks.size < Handle.count)
    (h : document.blocks[Handle.root.index]? = some block) (texts : List String) {α : Type}
    (next : Handle → Step Document α) :
    (newBlock none >>= fun body => addLines body texts >>= fun _ => separate >>= fun _ =>
        next body) document =
      next (.next document.blocks.size)
        ((document.append .root (separator block.entries.toList)).extend
          [{ entries := (texts.map .line).toArray }]) := by
  rw [newBlock_addLines hlt, Step.bind_of_ok (separate_extend h _)]

theorem place_extend {body : Handle} {entries : List Entry} {news : List Block}
    (hroot : Handle.root.index < document.blocks.size)
    (hbody : body.index < document.blocks.size + news.length) (header footer : String) :
    place header body footer ((document.append .root entries).extend news) =
      .ok () ((document.append .root
        (entries ++ [.line header, .block body, .line footer])).extend news) := by
  rw [place_of_lt (by simpa using hbody), append_extend (by simpa using hroot), append_append]

/-! ### Counting blocks -/

open Step

/-- Whenever the step succeeds, the document has so many more blocks. -/
abbrev Allocates {α : Type} (amount : Nat) (step : Step Document α) : Prop :=
  Adds (fun document => document.blocks.size) amount step

theorem allocates_update (handle : Handle) (change : Block → Block) :
    Allocates 0 (update handle change) := by
  intro document _ document' h
  by_cases hlt : handle.index < document.blocks.size
  · rw [update_of_lt _ hlt] at h
    obtain ⟨_, rfl⟩ := h
    simp
  · rw [update_of_not_lt _ hlt] at h
    cases h

theorem allocates_newBlock (owner : Option String) : Allocates 1 (newBlock owner) := by
  rintro document _ _ ⟨⟩
  simp

theorem allocates_newBlockIn (parent : Handle) : Allocates 1 (newBlockIn parent) := by
  refine Adds.after Adds.get fun document => ?_
  exact Adds.after (Adds.ofExcept (document.ownerOf parent)) allocates_newBlock

theorem allocates_addLine (handle : Handle) (text : String) : Allocates 0 (addLine handle text) :=
  allocates_update handle _

theorem allocates_addLines (handle : Handle) (texts : List String) :
    Allocates 0 (addLines handle texts) := by
  induction texts with
  | nil => exact Adds.pure ()
  | cons text rest ih => exact Adds.after (allocates_addLine handle text) fun _ => ih

theorem allocates_addBlock (parent child : Handle) : Allocates 0 (addBlock parent child) := by
  refine Adds.after Adds.get fun document => ?_
  exact Adds.after (Adds.ofExcept (document.blockAt child)) fun _ => allocates_update parent _

theorem allocates_separate : Allocates 0 separate := by
  refine Adds.after Adds.get fun document => ?_
  refine Adds.after (Adds.ofExcept (document.isEmptyAt .root)) fun empty => ?_
  cases empty
  · exact allocates_addLine .root ""
  · exact Adds.pure ()

theorem allocates_openScope (block : Handle) (header footer : String) :
    Allocates 1 (openScope block header footer) := by
  refine Adds.after (allocates_addLine block header) fun _ => ?_
  refine Adds.bind (n := 0) (allocates_newBlockIn block) fun inner => ?_
  refine Adds.after (allocates_addBlock block inner) fun _ => ?_
  exact Adds.after (allocates_addLine block footer) fun _ => Adds.pure inner

theorem allocates_openScopes (block : Handle) (header divider footer : String) :
    Allocates 2 (openScopes block header divider footer) := by
  refine Adds.bind (n := 1) (allocates_openScope block header divider) fun first => ?_
  refine Adds.bind (n := 0) (allocates_newBlockIn block) fun second => ?_
  refine Adds.after (allocates_addBlock block second) fun _ => ?_
  exact Adds.after (allocates_addLine block footer) fun _ => Adds.pure (first, second)

theorem allocates_place (header : String) (body : Handle) (footer : String) :
    Allocates 0 (place header body footer) := by
  refine Adds.after (allocates_addLine .root header) fun _ => ?_
  exact Adds.after (allocates_addBlock .root body) fun _ => allocates_addLine .root footer

end Document

end Polyglot
