import Polyglot.Proofs.Document.Tiers
import Polyglot.Target.Basic

/-! # Additions

What calls add to a document, in whatever language it is written: a few entries in one block, and a
few new blocks, all of which are shown there. Whatever is known of documents under construction
follows from what the six kinds of additions have in common.
-/

namespace Polyglot

/-- What a call adds to a document. -/
inductive Addition where
  /-- Lines at the top level. -/
  | lines (texts : List String)
  /-- A new block at the top level, after further lines. It may be the body of a method. -/
  | part (before : List String) (header footer : String) (owner : Option String)
      (body : List String)
  /-- A new block that is shown nowhere yet, and in it the body of a method. -/
  | member (owner header footer : String)
  /-- A line in the body of a method. -/
  | statement (block : Handle) (text : String)
  /-- A scope in the body of a method. -/
  | scope (block : Handle) (owner header footer : String)
  /-- Two scopes, one after the other. -/
  | scopes (block : Handle) (owner header divider footer : String)

namespace Addition

/-- The block that gets the entries, if there are so many blocks. -/
def place (size : Nat) : Addition → Handle
  | lines _ | part _ _ _ _ _ => .root
  | member _ _ _ => .next size
  | statement block _ | scope block _ _ _ | scopes block _ _ _ _ => block

/-- The further entries of that block. -/
def entries (size : Nat) : Addition → List Entry
  | lines texts => texts.map .line
  | part before header footer _ _ =>
    before.map .line ++ [.line header, .block (.next size), .line footer]
  | member _ header footer => [.line header, .block (.next (size + 1)), .line footer]
  | statement _ text => [.line text]
  | scope _ _ header footer => [.line header, .block (.next size), .line footer]
  | scopes _ _ header divider footer =>
    [.line header, .block (.next size), .line divider, .block (.next (size + 1)), .line footer]

/-- The new blocks. -/
def news : Addition → List Block
  | lines _ | statement _ _ => []
  | part _ _ _ owner body => [{ owner, entries := (body.map .line).toArray }]
  | member owner _ _ | scopes _ owner _ _ _ => [{ owner := some owner }, { owner := some owner }]
  | scope _ owner _ _ => [{ owner := some owner }]

/-- Which of the new blocks are shown. -/
def shown : Addition → List Nat
  | lines _ | statement _ _ => []
  | part _ _ _ _ _ | scope _ _ _ _ => [0]
  | member _ _ _ => [1]
  | scopes _ _ _ _ _ => [0, 1]

/-- What the call returns. -/
def reply (size : Nat) : Addition → Reply
  | lines _ | statement _ _ | part _ _ _ none _ => .done
  | part _ _ _ (some _) _ | scope _ _ _ _ => .opened (.next size)
  | member _ _ _ => .opened (.next (size + 1))
  | scopes _ _ _ _ _ => .branched (.next size) (.next (size + 1))

/-- The new blocks that belong to a method but are not returned. -/
def hidden (size : Nat) : Addition → List Handle
  | member _ _ _ => [.next size]
  | _ => []

/-- Statements and scopes are added to blocks that belong to methods. -/
def Suits (document : Document) : Addition → Prop
  | statement block _ => (document.ownerAt block).isSome
  | scope block owner _ _ | scopes block owner _ _ _ => document.ownerAt block = some owner
  | _ => True

end Addition

namespace Document

variable {document : Document} {addition : Addition} {handle : Handle}

/-- A document with an addition. -/
def add (document : Document) (addition : Addition) : Document :=
  (document.extend addition.news).append (addition.place document.blocks.size)
    (addition.entries document.blocks.size)

@[simp] theorem size_add : (document.add addition).blocks.size =
    document.blocks.size + addition.news.length := by
  simp [add]

theorem lt_of_owned (h : (document.ownerAt handle).isSome) :
    handle.index < document.blocks.size := by
  by_contra hlt
  rw [ownerAt, Array.getElem?_eq_none (by omega)] at h
  cases h

/-- Entries that go to a block that is there may as well be appended first. -/
theorem add_eq_extend (h : (addition.place document.blocks.size).index < document.blocks.size) :
    document.add addition = (document.append (addition.place document.blocks.size)
      (addition.entries document.blocks.size)).extend addition.news :=
  append_extend h _ _

theorem add_member_eq_extend (h : document.blocks.size < Handle.count)
    (owner header footer : String) :
    document.add (.member owner header footer) = document.extend
      [{ owner := some owner
         entries := #[.line header, .block (.next (document.blocks.size + 1)), .line footer] },
        { owner := some owner }] := by
  have hlt : (Handle.next document.blocks.size).index <
      (document.extend [{ owner := some owner }]).blocks.size := by
    simp [Handle.index_next h]
  have hsplit : document.extend [{ owner := some owner }, { owner := some owner }] =
      (document.extend [{ owner := some owner }]).extend [{ owner := some owner }] := by
    simp
  simp only [add, Addition.news, Addition.place, Addition.entries]
  rw [hsplit, append_extend hlt, append_extend_next h, extend_extend]
  simp

/-- The blank line before a further declaration, if there is anything before it. -/
def gap (document : Document) : List String :=
  if document.contents .root = [] then [] else [""]

theorem separator_eq_gap {block : Block} (h : document.blocks[Handle.root.index]? = some block) :
    separator block.entries.toList = document.gap.map .line := by
  rw [separator, gap, contents_of_find h]
  split <;> rfl

theorem addLine_eq_add (h : (document.ownerAt handle).isSome) (text : String) :
    addLine handle text document = .ok () (document.add (.statement handle text)) := by
  rw [addLine_of_lt (lt_of_owned h), add, Addition.news, extend_nil]
  rfl

section
variable {owner : String} (h : document.ownerAt handle = some owner)
  (header divider footer : String)
include h

theorem openScope_eq_add : openScope handle header footer document =
    .ok (.next document.blocks.size) (document.add (.scope handle owner header footer)) := by
  obtain ⟨block, hfind, howner⟩ := Option.bind_eq_some_iff.mp h
  rw [openScope_of_find hfind, howner, add_eq_extend]
  · rfl
  · exact lt_of_owned (Option.isSome_of_eq_some h)

theorem openScopes_eq_add : openScopes handle header divider footer document =
    .ok (.next document.blocks.size, .next (document.blocks.size + 1))
      (document.add (.scopes handle owner header divider footer)) := by
  obtain ⟨block, hfind, howner⟩ := Option.bind_eq_some_iff.mp h
  rw [openScopes_of_find hfind, howner, add_eq_extend]
  · rfl
  · exact lt_of_owned (Option.isSome_of_eq_some h)

end

/-! ### Tiers -/

section
variable {news : List Block} {i : Nat}

theorem next_ne_root (hpos : 0 < i) (h : i < Handle.count) : Handle.next i ≠ .root := by
  intro heq
  have hindex := congrArg Handle.index heq
  rw [Handle.index_next h] at hindex
  change i = 0 at hindex
  omega

/-- A new block belongs to whom the addition says. -/
theorem ownerAt_next (h : document.blocks.size + i < Handle.count) :
    (document.extend news).ownerAt (.next (document.blocks.size + i)) =
      news[i]?.bind Block.owner := by
  rw [ownerAt, Handle.index_next h, find_extend_new (Nat.le_add_right _ _),
    Nat.add_sub_cancel_left]

namespace Tiered

theorem tier_next_pos (h : document.Tiered) (hi : document.blocks.size + i < Handle.count) :
    0 < (document.extend news).tier (.next (document.blocks.size + i)) := by
  have hpos : 0 < document.blocks.size := h.nonempty
  rw [Nat.pos_iff_ne_zero, ne_eq, tier_eq_zero_iff]
  exact next_ne_root (by omega) hi

/-- The new block of a method comes after all blocks that were there. -/
theorem tier_next (h : document.Tiered) (news : List Block) (i : Nat)
    (hi : document.blocks.size + i < Handle.count)
    (howner : (news[i]?.bind Block.owner).isSome) :
    (document.extend news).tier (.next (document.blocks.size + i)) =
      document.blocks.size + i + 2 := by
  have hpos : 0 < document.blocks.size := h.nonempty
  rw [tier, if_neg (next_ne_root (by omega) hi), ownerAt_next hi, if_pos howner,
    Handle.index_next hi]

theorem tier_lt_of_owned (h : document.Tiered) (howned : (document.ownerAt handle).isSome) :
    (document.extend news).tier handle < document.blocks.size + 2 := by
  have hlt := lt_of_owned howned
  rw [tier_congr (ownerAt_extend_of_lt hlt news), h.tier_of_owned howned]
  omega

/-- New blocks may be shown in any block of an earlier tier. -/
theorem append_news (h : document.Tiered) {entries : List Entry}
    (hroom : document.blocks.size + news.length ≤ Handle.count)
    (hblank : ∀ block ∈ news, children block.entries.toList = [])
    (hlt : handle.index < document.blocks.size + news.length)
    (hnodup : (children entries).Nodup)
    (hnew : ∀ inner ∈ children entries, ∃ i < news.length,
      inner = .next (document.blocks.size + i) ∧
        (document.extend news).tier handle < (document.extend news).tier inner) :
    ((document.extend news).append handle entries).Tiered := by
  apply (h.extend hroom hblank).append (by simpa using hlt) hnodup
  intro inner hinner
  obtain ⟨i, hi, rfl, htier⟩ := hnew inner hinner
  have hindex : (Handle.next (document.blocks.size + i)).index = document.blocks.size + i :=
    Handle.index_next (by omega)
  refine ⟨?_, ?_, htier⟩
  · rw [hindex, size_extend]
    omega
  · rw [targets_extend hblank]
    intro hmem
    have hold := h.allocated _ hmem
    omega

end Tiered

end

theorem children_lines (texts : List String) : children (texts.map .line) = [] := by
  simp [children, Entry.child?]

theorem children_entries (addition : Addition) (size : Nat) :
    children (addition.entries size) = addition.shown.map fun i => .next (size + i) := by
  cases addition <;> simp [Addition.entries, Addition.shown, children_lines]

theorem lt_of_shown {i : Nat} (h : i ∈ addition.shown) : i < addition.news.length := by
  cases addition <;> simp [Addition.shown, Addition.news] at h ⊢ <;> omega

/-- The block that gets the entries is there once the new blocks are. -/
theorem place_lt (hpos : Handle.root.index < document.blocks.size)
    (hsuits : addition.Suits document) : (addition.place document.blocks.size).index <
      document.blocks.size + addition.news.length := by
  have hnext := Handle.index_next_le document.blocks.size
  cases addition with
  | lines texts => exact hpos
  | part before header footer owner body => exact Nat.lt_succ_of_lt hpos
  | member owner header footer => exact Nat.lt_succ_of_lt (Nat.lt_succ_of_le hnext)
  | statement block text => exact lt_of_owned hsuits
  | scope block owner header footer =>
    exact Nat.lt_succ_of_lt (lt_of_owned (Option.isSome_of_eq_some hsuits))
  | scopes block owner header divider footer =>
    exact Nat.lt_add_right 2 (lt_of_owned (Option.isSome_of_eq_some hsuits))

/-- New blocks are shown in earlier ones. -/
theorem Tiered.place_lt_shown (h : document.Tiered) (hsuits : addition.Suits document)
    (hroom : document.blocks.size + addition.news.length ≤ Handle.count) {i : Nat}
    (hi : i ∈ addition.shown) :
    (document.extend addition.news).tier (addition.place document.blocks.size) <
      (document.extend addition.news).tier (.next (document.blocks.size + i)) := by
  have hlt := lt_of_shown hi
  cases addition with
  | lines texts => cases hi
  | part before header footer owner body =>
    rw [Addition.place, tier_eq_zero_iff.mpr rfl]
    exact h.tier_next_pos (by omega)
  | member owner header footer =>
    obtain rfl : i = 1 := by simpa [Addition.shown] using hi
    have hplace := h.tier_next (Addition.member owner header footer).news 0 (by omega) rfl
    rw [Nat.add_zero] at hplace
    rw [h.tier_next (Addition.member owner header footer).news 1 (by omega) rfl, Addition.place,
      hplace]
    omega
  | statement block text => cases hi
  | scope block owner header footer =>
    obtain rfl : i = 0 := by simpa [Addition.shown] using hi
    rw [h.tier_next (Addition.scope block owner header footer).news 0 (by omega) rfl]
    exact h.tier_lt_of_owned (Option.isSome_of_eq_some hsuits)
  | scopes block owner header divider footer =>
    have howned : ((Addition.scopes block owner header divider footer).news[i]?.bind
        Block.owner).isSome := by
      obtain rfl | rfl : i = 0 ∨ i = 1 := by simpa [Addition.shown] using hi
      · rfl
      · rfl
    rw [h.tier_next (Addition.scopes block owner header divider footer).news i (by omega) howned]
    exact Nat.lt_of_lt_of_le (h.tier_lt_of_owned (Option.isSome_of_eq_some hsuits)) (by omega)

/-- An addition keeps the tiers in order. -/
theorem Tiered.add (h : document.Tiered) (hsuits : addition.Suits document)
    (hroom : document.blocks.size + addition.news.length ≤ Handle.count) :
    (document.add addition).Tiered := by
  apply h.append_news hroom _ (place_lt h.nonempty hsuits)
  · rw [children_entries]
    apply List.Nodup.map_on _ (by cases addition <;> simp [Addition.shown])
    intro i hi j hj heq
    have hindex := congrArg Handle.index heq
    have hilt := lt_of_shown hi
    have hjlt := lt_of_shown hj
    rw [Handle.index_next (by omega), Handle.index_next (by omega)] at hindex
    omega
  · intro inner hinner
    rw [children_entries] at hinner
    obtain ⟨i, hi, rfl⟩ := List.mem_map.mp hinner
    exact ⟨i, lt_of_shown hi, rfl, h.place_lt_shown hsuits hroom hi⟩
  · cases addition <;> simp [Addition.news, children_lines]

/-! ### Owners -/

theorem ownerAt_add_of_lt (h : handle.index < document.blocks.size) :
    (document.add addition).ownerAt handle = document.ownerAt handle := by
  rw [add, ownerAt_append, ownerAt_extend_of_lt h]

theorem eq_next_iff {i : Nat} (h : i < Handle.count) : handle = .next i ↔ handle.index = i := by
  constructor
  · rintro rfl
    exact Handle.index_next h
  · intro heq
    exact Handle.index_inj (heq.trans (Handle.index_next h).symm)

/-- The new blocks of methods are those that are returned and those that hold one that is. -/
theorem mem_issued_iff {size : Nat} (hroom : size + addition.news.length ≤ Handle.count) :
    handle ∈ (addition.reply size).handles ∨ handle ∈ addition.hidden size ↔
      size ≤ handle.index ∧ (addition.news[handle.index - size]?.bind Block.owner).isSome := by
  cases addition with
  | part before header footer owner body =>
    cases owner <;>
      grind [Addition.reply, Addition.hidden, Addition.news, Reply.handles, eq_next_iff]
  | _ => grind [Addition.reply, Addition.hidden, Addition.news, Reply.handles, eq_next_iff]

/-- Blocks that were there before are not returned. -/
theorem not_mem_reply_of_lt {size : Nat} (hroom : size + addition.news.length ≤ Handle.count)
    (h : handle.index < size) : handle ∉ (addition.reply size).handles := by
  intro hmem
  exact Nat.not_le_of_lt h ((mem_issued_iff hroom).mp (.inl hmem)).1

theorem not_mem_reply_of_hidden {size : Nat} (hroom : size + addition.news.length ≤ Handle.count)
    (h : handle ∈ addition.hidden size) : handle ∉ (addition.reply size).handles := by
  cases addition with
  | member owner header footer =>
    have hlt : size + 1 < Handle.count := hroom
    rw [List.mem_singleton.mp h, Addition.reply, Reply.handles, List.mem_singleton,
      eq_next_iff hlt, Handle.index_next (Nat.lt_of_succ_lt hlt)]
    omega
  | _ => cases h

/-- After an addition, a block belongs to a method if it did before, if it was returned, or if it
holds a body that was returned. -/
theorem owned_add_iff (hroom : document.blocks.size + addition.news.length ≤ Handle.count) :
    ((document.add addition).ownerAt handle).isSome ↔ (document.ownerAt handle).isSome ∨
      handle ∈ (addition.reply document.blocks.size).handles ∨
      handle ∈ addition.hidden document.blocks.size := by
  rw [add, ownerAt_append, mem_issued_iff hroom]
  by_cases hlt : handle.index < document.blocks.size
  · rw [ownerAt_extend_of_lt hlt]
    constructor
    · exact Or.inl
    · rintro (hold | ⟨hnew, -⟩)
      · exact hold
      · omega
  · have hold : ¬ (document.ownerAt handle).isSome := fun howned => hlt (lt_of_owned howned)
    rw [ownerAt, find_extend_new (by omega)]
    simp [hold, Nat.le_of_not_lt hlt]

/-! ### Moves -/

/-- Something may be added before or after entries are moved between blocks that it leaves alone. -/
theorem moveEach_add {pairs : List (Handle × Handle)}
    (hvalid : ∀ pair ∈ pairs, pair.1.index < document.blocks.size ∧
      pair.2.index < document.blocks.size)
    (happart : ∀ pair ∈ pairs, addition.place document.blocks.size ≠ pair.1 ∧
      addition.place document.blocks.size ≠ pair.2) :
    (document.add addition).moveEach pairs = (document.moveEach pairs).add addition := by
  rw [add, add, moveEach_append_entries happart, moveEach_extend hvalid, size_moveEach]

end Document

end Polyglot
