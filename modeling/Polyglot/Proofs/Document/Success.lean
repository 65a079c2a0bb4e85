import Polyglot.Proofs.Document.Growth

/-! # Steps that cannot stop

A step on a document stops only at a handle of a block that is not there, so the number of blocks
decides whether it can. The handle of a new block never points behind it, not even once all handles
are taken; hence whatever begins with blocks that are there is carried to its end.
-/

namespace Polyglot.Document

/-- On every document with at least so many blocks, the step succeeds and takes none away. -/
def Succeeds {α : Type} (least : Nat) (step : Step Document α) : Prop :=
  ∀ ⦃document : Document⦄, least ≤ document.blocks.size →
    ∃ a document', step document = .ok a document' ∧ document.blocks.size ≤ document'.blocks.size

namespace Succeeds

variable {α β : Type} {least : Nat}

theorem pure (a : α) : Succeeds least (Pure.pure a : Step Document α) := by
  intro document _
  exact ⟨a, document, rfl, Nat.le_refl _⟩

theorem bind {first : Step Document α} {next : α → Step Document β}
    (hfirst : Succeeds least first) (hnext : ∀ a, Succeeds least (next a)) :
    Succeeds least (first >>= next) := by
  intro document hleast
  obtain ⟨a, between, hFirst, hsize⟩ := hfirst hleast
  obtain ⟨b, document', hNext, hsize'⟩ := hnext a (Nat.le_trans hleast hsize)
  exact ⟨b, document', (Step.bind_of_ok hFirst).trans hNext, Nat.le_trans hsize hsize'⟩

/-- What follows a new block may count on it. -/
theorem newBlock_bind (owner : Option String) {next : Handle → Step Document β}
    (hnext : ∀ size, least ≤ size → Succeeds (size + 1) (next (.next size))) :
    Succeeds least (newBlock owner >>= next) := by
  intro document hleast
  have hnew := newBlock_eq_extend document owner
  have hroom : document.blocks.size + 1 ≤ (document.extend [{ owner }]).blocks.size := by simp
  obtain ⟨b, document', hNext, hsize⟩ := hnext document.blocks.size hleast hroom
  rw [size_extend] at hsize
  exact ⟨b, document', (Step.bind_of_ok hnew).trans hNext,
    Nat.le_trans (Nat.le_add_right _ _) hsize⟩

theorem newBlockIn_bind {parent : Handle} (hparent : parent.index < least)
    {next : Handle → Step Document β}
    (hnext : ∀ size, least ≤ size → Succeeds (size + 1) (next (.next size))) :
    Succeeds least (newBlockIn parent >>= next) := by
  intro document hleast
  have hlt : parent.index < document.blocks.size := Nat.lt_of_lt_of_le hparent hleast
  have hnew := newBlockIn_of_find (Array.getElem?_eq_getElem hlt)
  rw [← newBlock_eq_extend] at hnew
  obtain ⟨b, document', hrest, hsize⟩ :=
    newBlock_bind document.blocks[parent.index].owner hnext hleast
  refine ⟨b, document', ?_, hsize⟩
  rw [← hrest]
  simp only [Bind.bind, EStateM.bind, hnew]

end Succeeds

variable {least : Nat} {handle : Handle}

theorem succeeds_addLine (h : handle.index < least) (text : String) :
    Succeeds least (addLine handle text) := by
  intro document hleast
  exact ⟨(), _, addLine_of_lt (Nat.lt_of_lt_of_le h hleast) text, by simp⟩

theorem succeeds_addLines (h : handle.index < least) (texts : List String) :
    Succeeds least (addLines handle texts) := by
  intro document hleast
  exact ⟨(), _, addLines_of_lt (Nat.lt_of_lt_of_le h hleast) texts, by simp⟩

theorem succeeds_addBlock {child : Handle} (h : handle.index < least)
    (hchild : child.index < least) : Succeeds least (addBlock handle child) := by
  intro document hleast
  have hadd := addBlock_of_lt (Nat.lt_of_lt_of_le h hleast) (Nat.lt_of_lt_of_le hchild hleast)
  exact ⟨(), _, hadd, by simp⟩

theorem succeeds_separate (h : 0 < least) : Succeeds least separate := by
  intro document hleast
  have hlt : Handle.root.index < document.blocks.size := Nat.lt_of_lt_of_le h hleast
  exact ⟨(), _, separate_of_find (Array.getElem?_eq_getElem hlt), by simp⟩

theorem succeeds_place (h : handle.index < least) (header footer : String) :
    Succeeds least (place header handle footer) := by
  intro document hleast
  exact ⟨(), _, place_of_lt (Nat.lt_of_lt_of_le h hleast) header footer, by simp⟩

theorem succeeds_openScope (h : handle.index < least) (header footer : String) :
    Succeeds least (openScope handle header footer) := by
  intro document hleast
  have hfind := Array.getElem?_eq_getElem (Nat.lt_of_lt_of_le h hleast)
  exact ⟨_, _, openScope_of_find hfind header footer, by simp⟩

theorem succeeds_openScopes (h : handle.index < least) (header divider footer : String) :
    Succeeds least (openScopes handle header divider footer) := by
  intro document hleast
  have hfind := Array.getElem?_eq_getElem (Nat.lt_of_lt_of_le h hleast)
  exact ⟨_, _, openScopes_of_find hfind header divider footer, by simp⟩

end Polyglot.Document
