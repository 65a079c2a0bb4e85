import Polyglot.Proofs.Document.Growth
import Polyglot.Proofs.Document.Printing

/-! # Passages

A test file consists of passages: a header, texts that are indented, and a footer. The texts stand
in a block of their own, which is shown only once the passage is complete. Blocks that no passage
refers to do not show, so that two documents with the same passages are rendered alike.
-/

namespace Polyglot

/-- A test as it stands in its file. -/
structure Passage where
  header : String
  texts : List String
  footer : String

namespace Passage

/-- What a passage shows at the top level, given the block of its texts. -/
def entries (passage : Passage) (body : Handle) : List Entry :=
  [.line passage.header, .block body, .line passage.footer]

/-- The block of the texts. -/
def block (passage : Passage) : Block where
  entries := (passage.texts.map .line).toArray

def lines (passage : Passage) : List Line :=
  ⟨0, passage.header⟩ :: (passage.texts.map (Line.mk 1) ++ [⟨0, passage.footer⟩])

end Passage

namespace Document

/-- Every passage has a block other than the root. -/
def Houses (document : Document) : List Passage → List Handle → Prop :=
  List.Forall₂ fun passage body =>
    body ≠ .root ∧ document.blocks[body.index]? = some passage.block

/-- The document shows the passages; `join` puts together what each of them shows. -/
def Shows (join : List (List Entry) → List Entry) (document : Document) (passages : List Passage) :
    Prop :=
  ∃ bodies, document.Houses passages bodies ∧ document.blocks[Handle.root.index]? =
    some { entries := (join (List.zipWith Passage.entries passages bodies)).toArray }

variable {document : Document} {passages : List Passage} {bodies : List Handle}
  {join : List (List Entry) → List Entry}

theorem Houses.extend (h : document.Houses passages bodies) (news : List Block) :
    (document.extend news).Houses passages bodies := by
  apply h.imp
  rintro passage body ⟨hne, hfind⟩
  exact ⟨hne, find_extend hfind news⟩

theorem Houses.append_root (h : document.Houses passages bodies) (entries : List Entry) :
    (document.append .root entries).Houses passages bodies := by
  apply h.imp
  rintro passage body ⟨hne, hfind⟩
  have hindex : Handle.root.index ≠ body.index := fun heq => hne (Handle.index_inj heq).symm
  refine ⟨hne, ?_⟩
  simpa [append, Array.getElem?_modify, hindex] using hfind

/-- Blocks that are not referred to do not show. -/
theorem Shows.extend (h : document.Shows join passages) (news : List Block) :
    (document.extend news).Shows join passages := by
  obtain ⟨bodies, hhouses, hroot⟩ := h
  exact ⟨bodies, hhouses.extend news, find_extend hroot news⟩

theorem find_extend_last {size : Nat} {block : Block} (h : document.blocks.size = size) :
    (document.extend [block]).blocks[size]? = some block := by
  subst h
  simp [Document.extend]

/-- A further passage, whose block is added to the document. -/
theorem Shows.add (h : document.Shows join passages) (hlt : document.blocks.size < Handle.count)
    (passage : Passage) (lead : List Entry)
    (hjoin : ∀ bodies, passages.length = bodies.length →
      join (List.zipWith Passage.entries passages bodies ++
        [passage.entries (.next document.blocks.size)]) =
      join (List.zipWith Passage.entries passages bodies) ++
        (lead ++ passage.entries (.next document.blocks.size))) :
    ((document.append .root (lead ++ passage.entries (.next document.blocks.size))).extend
      [passage.block]).Shows join (passages ++ [passage]) := by
  obtain ⟨bodies, hhouses, hroot⟩ := h
  have hpos : 0 < document.blocks.size := (Array.getElem?_eq_some_iff.mp hroot).1
  have hindex := Handle.index_next hlt
  have hne : Handle.next document.blocks.size ≠ .root := by
    intro heq
    rw [heq] at hindex
    exact Nat.ne_of_lt hpos hindex
  refine ⟨bodies ++ [.next document.blocks.size], ?_, ?_⟩
  · apply List.rel_append ((hhouses.append_root _).extend _)
    refine .cons ⟨hne, ?_⟩ .nil
    rw [hindex]
    exact find_extend_last (size_append _)
  · rw [List.zipWith_append hhouses.length_eq]
    simp only [List.zipWith_cons_cons, List.zipWith_nil_left, hjoin bodies hhouses.length_eq]
    simpa using find_extend (find_append hroot _) [passage.block]

/-! ### Rendering -/

theorem Houses.prints {depth : Nat} (h : document.Houses passages bodies)
    (hsize : document.blocks.size = depth + 1) :
    List.Forall₂ (document.Prints depth 0) (List.zipWith Passage.entries passages bodies)
      (passages.map Passage.lines) := by
  induction h with
  | nil => exact .nil
  | @cons passage body passages bodies hfirst hrest ih =>
    refine .cons ?_ ih
    obtain ⟨hne, hfind⟩ := hfirst
    -- Besides the root there is the block of the passage, so there is room for nesting.
    obtain ⟨lower, rfl⟩ : ∃ lower, depth = lower + 1 := by
      have hlt := (Array.getElem?_eq_some_iff.mp hfind).1
      have hpos : body.index ≠ Handle.root.index := fun heq => hne (Handle.index_inj heq)
      have hroot : Handle.root.index = 0 := rfl
      exact ⟨depth - 1, by omega⟩
    refine (Prints.block hfind ?_ (Prints.nil.line _)).line _
    simpa [Passage.block] using Prints.texts passage.texts

/-- The text of a document that shows passages, given how the lines of passages are put together. -/
theorem Shows.renderAfter_eq {lines : List (List Line) → List Line}
    (h : document.Shows join passages)
    (hlines : ∀ {depth items paragraphs}, List.Forall₂ (document.Prints depth 0) items paragraphs →
      document.Prints depth 0 (join items) (lines paragraphs)) (text : String) :
    document.renderAfter { indent := .tab, text } =
      .ok (text ++ Line.displayAll (lines (passages.map Passage.lines))) := by
  obtain ⟨bodies, hhouses, hroot⟩ := h
  have hpos : 0 < document.blocks.size := (Array.getElem?_eq_some_iff.mp hroot).1
  obtain ⟨depth, hsize⟩ : ∃ depth, document.blocks.size = depth + 1 :=
    ⟨document.blocks.size - 1, by omega⟩
  apply renderAfter_of_prints hroot hsize
  simpa using hlines (hhouses.prints hsize)

end Document

end Polyglot
