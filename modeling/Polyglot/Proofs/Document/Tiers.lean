import Polyglot.Proofs.Document.Forest

/-! # Tiers

Why documents are forests. The root comes first, then the blocks of types, then the blocks that
belong to methods, in the order in which they were added; and every reference leads from an earlier
to a later one. That a block of a type may hold a block that was added before it, once the members
of the type are moved into it, makes no difference.
-/

namespace Polyglot.Document

open Relation

variable {document : Document} {handle outer inner source target : Handle} {news : List Block}
  {entries : List Entry}

/-- The place of a block in the order in which blocks refer to each other. -/
def tier (document : Document) (handle : Handle) : Nat :=
  if handle = .root then 0
  else if (document.ownerAt handle).isSome then handle.index + 2
  else 1

/-- The root belongs to no method, every reference leads to a block that is there and to a later
tier, and no block is referred to twice. -/
structure Tiered (document : Document) : Prop where
  nonempty : Handle.root.index < document.blocks.size
  room : document.blocks.size ≤ Handle.count
  free : document.ownerAt .root = none
  allocated : ∀ handle ∈ document.targets, handle.index < document.blocks.size
  once : document.targets.Nodup
  ascending : ∀ outer inner, document.RefersTo outer inner →
    document.tier outer < document.tier inner

theorem tier_eq_zero_iff : document.tier handle = 0 ↔ handle = .root := by
  rw [tier]
  split
  · simp_all
  · split <;> simp_all

theorem tier_of_free (hroot : handle ≠ .root) (h : document.ownerAt handle = none) :
    document.tier handle = 1 := by
  rw [tier, if_neg hroot, h]
  rfl

/-- Tiers depend on owners only. -/
theorem tier_congr {document' : Document}
    (h : document'.ownerAt handle = document.ownerAt handle) :
    document'.tier handle = document.tier handle := by
  rw [tier, tier, h]

namespace Tiered

theorem ne_root_of_owned (h : document.Tiered) (howned : (document.ownerAt handle).isSome) :
    handle ≠ .root := by
  rintro rfl
  rw [h.free] at howned
  cases howned

theorem tier_of_owned (h : document.Tiered) (howned : (document.ownerAt handle).isSome) :
    document.tier handle = handle.index + 2 := by
  rw [tier, if_neg (h.ne_root_of_owned howned), if_pos howned]

theorem lt_of_refersTo (h : document.Tiered) (hrefers : document.RefersTo outer inner) :
    inner.index < document.blocks.size :=
  h.allocated inner hrefers.mem_targets

/-- Documents with tiers are forests. -/
theorem forest (h : document.Tiered) : document.Forest where
  allocated := h.allocated
  once := h.once
  root := by
    intro hroot
    obtain ⟨i, block, hfind, hinner⟩ := mem_targets_iff.mp hroot
    have hi : i < Handle.count :=
      Nat.lt_of_lt_of_le (Array.getElem?_eq_some_iff.mp hfind).1 h.room
    have hrefers : document.RefersTo (.next i) .root := by
      rw [← Handle.index_next hi] at hfind
      rw [RefersTo, contents_of_find hfind]
      exact hinner
    have hlt := h.ascending _ _ hrefers
    rw [tier_eq_zero_iff.mpr rfl] at hlt
    omega
  acyclic := by
    have hpath : ∀ outer inner, TransGen document.RefersTo outer inner →
        document.tier outer < document.tier inner := by
      intro outer inner hpath
      induction hpath with
      | single hlast => exact h.ascending _ _ hlast
      | tail _ hlast ih => exact Nat.lt_trans ih (h.ascending _ _ hlast)
    intro handle hcycle
    exact Nat.lt_irrefl _ (hpath handle handle hcycle)

theorem start : Tiered {} where
  nonempty := Nat.zero_lt_one
  room := by decide
  free := rfl
  allocated := by
    rintro handle ⟨⟩
  once := List.nodup_nil
  ascending outer inner hrefers := by
    cases hrefers.mem_targets

/-! ### Further blocks -/

theorem targets_extend (hblank : ∀ block ∈ news, children block.entries.toList = []) :
    (document.extend news).targets = document.targets := by
  rw [targets, targets, extend, Array.toList_append, List.flatMap_append]
  simpa using hblank

/-- Blocks that refer to nothing may be added. -/
theorem extend (h : document.Tiered) (hroom : document.blocks.size + news.length ≤ Handle.count)
    (hblank : ∀ block ∈ news, children block.entries.toList = []) :
    (document.extend news).Tiered where
  nonempty := by
    rw [size_extend]
    exact Nat.lt_of_lt_of_le h.nonempty (Nat.le_add_right _ _)
  room := by rwa [size_extend]
  free := by
    rw [ownerAt_extend_of_lt h.nonempty]
    exact h.free
  allocated handle hhandle := by
    rw [targets_extend hblank] at hhandle
    have hlt := h.allocated handle hhandle
    rw [size_extend]
    omega
  once := by
    rw [targets_extend hblank]
    exact h.once
  ascending outer inner hrefers := by
    -- The reference is an old one, since the new blocks have none.
    have houter : outer.index < document.blocks.size := by
      by_contra hnew
      obtain ⟨block, hfind, hinner⟩ := hrefers.exists_find
      rw [find_extend_new (by omega)] at hfind
      rw [hblank block (List.mem_of_getElem? hfind)] at hinner
      cases hinner
    have hold : document.RefersTo outer inner := by
      rwa [RefersTo, contents_extend_of_lt houter] at hrefers
    rw [tier_congr (ownerAt_extend_of_lt houter news),
      tier_congr (ownerAt_extend_of_lt (h.lt_of_refersTo hold) news)]
    exact h.ascending outer inner hold

/-! ### Further entries -/

theorem targets_append (h : handle.index < document.blocks.size) (entries : List Entry) :
    (document.append handle entries).targets.Perm (document.targets ++ children entries) := by
  have hfind : document.blocks.toList[handle.index]? = some document.blocks[handle.index] := by
    simp [h]
  rw [targets, targets, Document.append, Array.toList_modify, ← List.append_nil (List.flatMap _ _)]
  apply perm_flatMap_modify _ _ hfind
  simp

theorem refersTo_append (h : handle.index < document.blocks.size) :
    (document.append handle entries).RefersTo outer inner ↔
      document.RefersTo outer inner ∨ outer = handle ∧ inner ∈ children entries := by
  by_cases heq : outer = handle
  · subst heq
    rw [RefersTo, RefersTo, contents_append_self h, children_append, List.mem_append]
    simp
  · rw [RefersTo, RefersTo, contents_append_of_ne heq]
    simp [heq]

/-- References may be added to blocks of a later tier that nothing refers to. -/
theorem append (h : document.Tiered) (hlt : handle.index < document.blocks.size)
    (hnodup : (children entries).Nodup)
    (hfresh : ∀ inner ∈ children entries, inner.index < document.blocks.size ∧
      inner ∉ document.targets ∧ document.tier handle < document.tier inner) :
    (document.append handle entries).Tiered where
  nonempty := by
    rw [size_append]
    exact h.nonempty
  room := by
    rw [size_append]
    exact h.room
  free := by
    rw [ownerAt_append]
    exact h.free
  allocated other hother := by
    rw [size_append]
    rcases List.mem_append.mp ((targets_append hlt entries).mem_iff.mp hother) with hold | hnew
    · exact h.allocated other hold
    · exact (hfresh other hnew).1
  once := by
    rw [(targets_append hlt entries).nodup_iff]
    apply h.once.append hnodup
    intro other hold hnew
    exact (hfresh other hnew).2.1 hold
  ascending outer inner hrefers := by
    rw [tier_congr (ownerAt_append entries), tier_congr (ownerAt_append entries)]
    rcases (refersTo_append hlt).mp hrefers with hold | ⟨rfl, hnew⟩
    · exact h.ascending outer inner hold
    · exact (hfresh inner hnew).2.2

/-! ### Moved entries -/

theorem targets_clear (h : source.index < document.blocks.size) :
    ((document.clear source).targets ++ children (document.contents source)).Perm
      document.targets := by
  have hfind : document.blocks.toList[source.index]? = some document.blocks[source.index] := by
    simp [h]
  rw [targets, targets, clear, Array.toList_modify,
    ← List.append_nil (List.flatMap _ document.blocks.toList)]
  apply perm_flatMap_modify _ _ hfind
  rw [contents_of_find (Array.getElem?_eq_getElem h)]
  simp

/-- What stands in the block of a method may be moved to the block of a type. -/
theorem move (h : document.Tiered) (hsource : source.index < document.blocks.size)
    (htarget : target.index < document.blocks.size) (howned : (document.ownerAt source).isSome)
    (hfree : document.ownerAt target = none) (hroot : target ≠ .root) :
    (document.move source target).Tiered := by
  have hperm : (document.move source target).targets.Perm document.targets := by
    rw [Document.move]
    exact (targets_append (by simpa using htarget) _).trans (targets_clear hsource)
  refine ⟨?_, ?_, ?_, ?_, ?_, ?_⟩
  · rw [size_move]
    exact h.nonempty
  · rw [size_move]
    exact h.room
  · rw [ownerAt_move]
    exact h.free
  · intro handle hhandle
    rw [size_move]
    exact h.allocated handle (hperm.mem_iff.mp hhandle)
  · rw [hperm.nodup_iff]
    exact h.once
  · intro outer inner hrefers
    rw [tier_congr ownerAt_move, tier_congr ownerAt_move]
    rw [Document.move, refersTo_append (by simpa using htarget)] at hrefers
    rcases hrefers with hkept | ⟨rfl, hmoved⟩
    · by_cases heq : outer = source
      · subst heq
        rw [RefersTo, contents_clear_self] at hkept
        cases hkept
      · rw [RefersTo, contents_clear_of_ne heq] at hkept
        exact h.ascending outer inner hkept
    · -- Whatever a method's block refers to comes after all blocks of types.
      have hlt : document.tier source < document.tier inner := h.ascending source inner hmoved
      rw [h.tier_of_owned howned] at hlt
      rw [tier_of_free hroot hfree]
      omega

theorem moveEach (h : document.Tiered) {pairs : List (Handle × Handle)}
    (hpairs : ∀ pair ∈ pairs, pair.1.index < document.blocks.size ∧
      pair.2.index < document.blocks.size ∧ (document.ownerAt pair.1).isSome ∧
      document.ownerAt pair.2 = none ∧ pair.2 ≠ .root) : (document.moveEach pairs).Tiered := by
  induction pairs generalizing document with
  | nil => exact h
  | cons pair rest ih =>
    obtain ⟨hsource, htarget, howned, hfree, hroot⟩ := hpairs pair List.mem_cons_self
    rw [moveEach_cons]
    apply ih (h.move hsource htarget howned hfree hroot)
    intro other hother
    simpa using hpairs other (List.mem_cons_of_mem _ hother)

end Tiered

end Polyglot.Document
