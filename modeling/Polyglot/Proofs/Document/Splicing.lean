import Polyglot.Proofs.Document.Settling

/-! # Splicing

What settling does to each block. Methods are moved one after the other, but as long as they wait
in different blocks, none of which is set aside for a model, this amounts to moving all of them at
once: their own blocks end up empty, a block that is set aside for models gets what waited for any
of these models in the order of deferral, and all other blocks stay as they are.
-/

namespace Polyglot

namespace Document

variable {pairs : List (Handle × Handle)} {index : Nat}

/-- Blocks that nothing is moved from or to stay as they are. -/
theorem find_moveEach_of_apart (document : Document)
    (h : ∀ pair ∈ pairs, pair.1.index ≠ index ∧ pair.2.index ≠ index) :
    (document.moveEach pairs).blocks[index]? = document.blocks[index]? := by
  induction pairs generalizing document with
  | nil => rfl
  | cons pair rest ih =>
    obtain ⟨hsource, htarget⟩ := h pair List.mem_cons_self
    rw [moveEach_cons, ih _ fun other hother => h other (List.mem_cons_of_mem _ hother), move,
      append, clear, Array.getElem?_modify, if_neg htarget, Array.getElem?_modify, if_neg hsource]

/-- A block that is moved is empty afterwards. -/
theorem find_moveEach_of_moved (document : Document) (hsources : (pairs.map Prod.fst).Nodup)
    (hdisjoint : ∀ pair ∈ pairs, pair.2 ∉ pairs.map Prod.fst) {handle : Handle}
    (hhandle : handle ∈ pairs.map Prod.fst) :
    (document.moveEach pairs).blocks[handle.index]? =
      (document.blocks[handle.index]?).map fun block => { block with entries := #[] } := by
  induction pairs generalizing document with
  | nil => simp at hhandle
  | cons pair rest ih =>
    obtain ⟨source, target⟩ := pair
    rw [List.map_cons] at hdisjoint
    rw [List.map_cons, List.nodup_cons] at hsources
    have htarget : target.index ≠ handle.index := by
      intro heq
      exact hdisjoint (source, target) List.mem_cons_self (Handle.index_inj heq ▸ hhandle)
    have hrest : ∀ pair ∈ rest, pair.2 ∉ source :: rest.map Prod.fst :=
      fun pair hpair => hdisjoint pair (List.mem_cons_of_mem _ hpair)
    rw [moveEach_cons]
    rcases List.mem_cons.mp hhandle with rfl | hlater
    · -- Once emptied, the block is not touched again.
      have hapart : ∀ pair ∈ rest, pair.1.index ≠ handle.index ∧ pair.2.index ≠ handle.index := by
        intro pair hpair
        refine ⟨fun heq => ?_, fun heq => ?_⟩
        · have hmem : pair.1 ∈ rest.map Prod.fst := List.mem_map_of_mem hpair
          exact hsources.1 (Handle.index_inj heq ▸ hmem)
        · exact hrest pair hpair (Handle.index_inj heq ▸ List.mem_cons_self)
      rw [find_moveEach_of_apart _ hapart, move, append, clear, Array.getElem?_modify,
        if_neg htarget, Array.getElem?_modify, if_pos rfl]
    · have hne : handle ≠ source := by
        rintro rfl
        exact hsources.1 hlater
      have hlast := ih (document.move source target) hsources.2
        (fun pair hpair hmem => hrest pair hpair (List.mem_cons_of_mem _ hmem)) hlater
      rw [hlast, find_move hne, Option.map_map]
      rfl

end Document

namespace Members

variable {document : Document} {members : Members}

theorem firstStray?_eq_none_iff : members.firstStray? members.waiting = none ↔
    ∀ member ∈ members.waiting, ∃ block, members.home? member.model = some block := by
  simp [firstStray?, Option.ne_none_iff_exists']

theorem firstStray?_eq_some_iff {stray : Member} :
    members.firstStray? members.waiting = some stray ↔
      ∃ before after, members.waiting = before ++ stray :: after ∧
        (∀ member ∈ before, ∃ block, members.home? member.model = some block) ∧
        members.home? stray.model = none := by
  simp only [firstStray?, List.find?_eq_some_iff_append, Option.isNone_iff_eq_none,
    Bool.not_eq_true', Option.isNone_eq_false_iff, Option.isSome_iff_exists]
  constructor
  · rintro ⟨hnone, before, after, hsplit, hbefore⟩
    exact ⟨before, after, hsplit, hbefore, hnone⟩
  · rintro ⟨before, after, hsplit, hbefore, hnone⟩
    exact ⟨hnone, before, after, hsplit, hbefore⟩

theorem map_fst_moves (members : Members) (waiting : List Member) :
    (members.moves waiting).map Prod.fst = waiting.map Member.block := by
  simp [moves, Function.comp_def]

/-- What moves to a block that is set aside comes from the methods of its models, in order. -/
theorem moves_eq_flatMap (h : members.firstStray? members.waiting = none) (handle : Handle) :
    document.moves (members.moves members.waiting) handle =
      (members.waiting.filter fun member => members.home? member.model = some handle).flatMap
        fun member => document.contents member.block := by
  have hhome : ∀ member ∈ members.waiting,
      ((members.home? member.model).getD .root = handle ↔
        members.home? member.model = some handle) := by
    intro member hmember
    obtain ⟨block, hblock⟩ := firstStray?_eq_none_iff.mp h member hmember
    simp [hblock]
  rw [Document.moves, moves, List.filter_map, List.flatMap_map]
  congr 1
  exact List.filter_congr fun member hmember => by simp [hhome member hmember]

/-- The waiting methods can be moved: they wait in different blocks that are there, and the blocks
that models have set aside are others that are there. -/
structure Movable (document : Document) (members : Members) : Prop where
  allocated : ∀ member ∈ members.waiting, member.block.index < document.blocks.size
  nodup : (members.waiting.map Member.block).Nodup
  home_allocated : ∀ model block, members.home? model = some block →
    block.index < document.blocks.size
  home_apart : ∀ model block, members.home? model = some block →
    block ∉ members.waiting.map Member.block

theorem exists_home (hsettled : members.firstStray? members.waiting = none)
    {pair : Handle × Handle} (hpair : pair ∈ members.moves members.waiting) :
    ∃ member ∈ members.waiting, pair.1 = member.block ∧
      members.home? member.model = some pair.2 := by
  obtain ⟨member, hmember, rfl⟩ := List.mem_map.mp hpair
  obtain ⟨block, hblock⟩ := firstStray?_eq_none_iff.mp hsettled member hmember
  exact ⟨member, hmember, rfl, by simp [hblock]⟩

/-- What has become of a block once all methods have moved at the same time. -/
structure Spliced (document : Document) (members : Members) (index : Nat) (block block' : Block) :
    Prop where
  owner : block'.owner = block.owner
  /-- A block in which a method waited is empty. -/
  waited : ∀ member ∈ members.waiting, member.block.index = index → block'.entries = #[]
  /-- A block that models have set aside has its old entries, then those of their methods. -/
  home : ∀ model handle, members.home? model = some handle → handle.index = index →
    block'.entries = block.entries ++ ((members.waiting.filter fun member =>
      members.home? member.model = some handle).flatMap fun member =>
        document.contents member.block).toArray
  other : (∀ member ∈ members.waiting, member.block.index ≠ index) →
    (∀ model handle, members.home? model = some handle → handle.index ≠ index) → block' = block

namespace Movable

variable (h : Movable document members) (hsettled : members.firstStray? members.waiting = none)
include h hsettled

/-- Settling moves all methods. -/
theorem settle_eq : settle (document, members) =
    .ok () (document.moveEach (members.moves members.waiting), { members with waiting := [] }) := by
  refine settle_of_settled hsettled (Document.moveAll_eq_moveEach ?_)
  intro pair hpair
  obtain ⟨member, hmember, hsource, hhome⟩ := exists_home hsettled hpair
  exact ⟨hsource ▸ h.allocated member hmember, h.home_allocated member.model pair.2 hhome⟩

/-- One after the other amounts to all at once. -/
theorem spliced {index : Nat} {block : Block} (hblock : document.blocks[index]? = some block) :
    ∃ block', (document.moveEach (members.moves members.waiting)).blocks[index]? = some block' ∧
      Spliced document members index block block' := by
  have hsources : ((members.moves members.waiting).map Prod.fst).Nodup := by
    rw [map_fst_moves]
    exact h.nodup
  have hdisjoint : ∀ pair ∈ members.moves members.waiting,
      pair.2 ∉ (members.moves members.waiting).map Prod.fst := by
    intro pair hpair
    obtain ⟨member, -, -, hhome⟩ := exists_home hsettled hpair
    rw [map_fst_moves]
    exact h.home_apart member.model pair.2 hhome
  by_cases hwaited : ∃ member ∈ members.waiting, member.block.index = index
  · obtain ⟨member, hmember, rfl⟩ := hwaited
    have hmem : member.block ∈ members.waiting.map Member.block := List.mem_map_of_mem hmember
    have hfind := Document.find_moveEach_of_moved document hsources hdisjoint
      (map_fst_moves members members.waiting ▸ hmem)
    rw [hblock] at hfind
    refine ⟨_, hfind, ⟨rfl, fun _ _ _ => rfl, ?_, fun hapart => absurd rfl (hapart member hmember)⟩⟩
    intro model handle hhome hindex
    exact absurd (Handle.index_inj hindex ▸ hmem) (h.home_apart model handle hhome)
  · push Not at hwaited
    by_cases hset : ∃ model handle, members.home? model = some handle ∧ handle.index = index
    · obtain ⟨model, handle, hhome, rfl⟩ := hset
      have hunmoved : handle ∉ (members.moves members.waiting).map Prod.fst := by
        rw [map_fst_moves]
        exact h.home_apart model handle hhome
      have hfind := Document.find_moveEach document hsources hdisjoint hunmoved
      rw [hblock, moves_eq_flatMap hsettled] at hfind
      refine ⟨_, hfind, ⟨rfl, fun member hmember heq => absurd heq (hwaited member hmember), ?_,
        fun _ hother => absurd rfl (hother model handle hhome)⟩⟩
      intro other handle' _ hindex
      rw [Handle.index_inj hindex]
    · push Not at hset
      have hapart : ∀ pair ∈ members.moves members.waiting,
          pair.1.index ≠ index ∧ pair.2.index ≠ index := by
        intro pair hpair
        obtain ⟨member, hmember, hsource, hhome⟩ := exists_home hsettled hpair
        exact ⟨hsource ▸ hwaited member hmember, hset member.model pair.2 hhome⟩
      have hfind := Document.find_moveEach_of_apart document hapart
      rw [hblock] at hfind
      exact ⟨block, hfind, ⟨rfl, fun member hmember heq => absurd heq (hwaited member hmember),
        fun model handle hhome heq => absurd heq (hset model handle hhome), fun _ _ => rfl⟩⟩

end Movable

/-- Settling succeeds exactly if every waiting method has a home. Then nothing waits any more, and
each block has become what it does when all methods move at once. Otherwise nothing moves, and the
fault names the first method in the order of deferral that has no home. -/
theorem settle_moves_all_at_once (document : Document) (members : Members)
    (h : Movable document members) :
    ((∃ state, settle (document, members) = .ok () state) ↔
      ∀ member ∈ members.waiting, ∃ block, members.home? member.model = some block) ∧
    (∀ document' members', settle (document, members) = .ok () (document', members') →
      members' = { members with waiting := [] } ∧
      document'.blocks.size = document.blocks.size ∧
      ∀ index block, document.blocks[index]? = some block →
        ∃ block', document'.blocks[index]? = some block' ∧
          Spliced document members index block block') ∧
    ∀ fault state, settle (document, members) = .error fault state ↔
      ∃ before stray after, members.waiting = before ++ stray :: after ∧
        (∀ member ∈ before, ∃ block, members.home? member.model = some block) ∧
        members.home? stray.model = none ∧
        fault = .brokenReference stray.model stray.method ∧ state = (document, members) := by
  cases hstray : members.firstStray? members.waiting with
  | none =>
    have hall := firstStray?_eq_none_iff.mp hstray
    rw [h.settle_eq hstray]
    refine ⟨iff_of_true ⟨_, rfl⟩ hall, ?_, ?_⟩
    · rintro document' members' ⟨⟩
      exact ⟨rfl, Document.size_moveEach, fun index block => h.spliced hstray⟩
    · intro fault state
      refine iff_of_false nofun ?_
      rintro ⟨before, stray, after, hsplit, -, hnone, -⟩
      obtain ⟨block, hblock⟩ := hall stray (by simp [hsplit])
      rw [hnone] at hblock
      cases hblock
  | some stray =>
    obtain ⟨before, after, hsplit, hbefore, hnone⟩ := firstStray?_eq_some_iff.mp hstray
    rw [settle_of_stray document hstray]
    refine ⟨iff_of_false nofun ?_, nofun, ?_⟩
    · intro hall
      obtain ⟨block, hblock⟩ := hall stray (by simp [hsplit])
      rw [hnone] at hblock
      cases hblock
    · intro fault state
      constructor
      · rintro ⟨⟩
        exact ⟨before, stray, after, hsplit, hbefore, hnone, rfl, rfl⟩
      · rintro ⟨before', stray', after', hsplit', hbefore', hnone', rfl, rfl⟩
        have hsame := firstStray?_eq_some_iff.mpr ⟨before', after', hsplit', hbefore', hnone'⟩
        rw [hstray] at hsame
        cases hsame
        rfl

/-- Two models share a block, one of them after it was declared again, and their methods wait in
turn with one of a third model. -/
def crowded : Document × Members where
  fst := { blocks := #[
    { entries := #[.block ⟨1⟩, .block ⟨2⟩] },
    { entries := #[.line "old"] },
    { entries := #[.line "shared"] },
    { owner := some "Till", entries := #[.line "a", .block ⟨6⟩] },
    { owner := some "Tax", entries := #[.line "b"] },
    { owner := some "Shop", entries := #[.line "c"] },
    { owner := some "Till", entries := #[.line "inner"] }] }
  snd := {
    homes := [("Shop", ⟨2⟩), ("Till", ⟨2⟩), ("Tax", ⟨0⟩), ("Shop", ⟨1⟩)]
    waiting := [⟨"Till", "count", ⟨3⟩⟩, ⟨"Tax", "rate", ⟨4⟩⟩, ⟨"Shop", "open", ⟨5⟩⟩] }

theorem settle_moves_all_at_once_crowded :
    Movable crowded.1 crowded.2 ∧ ∃ document', settle crowded =
        .ok () (document', { crowded.2 with waiting := [] }) ∧
      document'.contents ⟨2⟩ = [.line "shared", .line "a", .block ⟨6⟩, .line "c"] ∧
      document'.contents ⟨1⟩ = [.line "old"] ∧ document'.contents ⟨3⟩ = [] := by
  have hhomes : ∀ model home, crowded.2.home? model = some home →
      home = ⟨2⟩ ∨ home = ⟨0⟩ := by
    intro model home hhome
    simp only [crowded, home?, List.lookup_cons, List.lookup_nil] at hhome
    grind
  have hmovable : Movable crowded.1 crowded.2 := by
    refine ⟨by decide, by decide, fun model home hhome => ?_, fun model home hhome => ?_⟩
    all_goals
      obtain rfl | rfl := hhomes model home hhome <;> decide
  obtain ⟨hok, hspliced, -⟩ := settle_moves_all_at_once crowded.1 crowded.2 hmovable
  obtain ⟨⟨document', members'⟩, hsettle⟩ := hok.mpr (by
    simp only [← Option.isSome_iff_exists]
    decide)
  obtain ⟨rfl, -, hblocks⟩ := hspliced document' members' hsettle
  refine ⟨hmovable, document', hsettle, ?_, ?_, ?_⟩
  · obtain ⟨block', hfind, hsplice⟩ := hblocks 2 _ rfl
    have hentries := hsplice.home "Shop" ⟨2⟩ rfl rfl
    rw [Document.contents_of_find hfind, hentries]
    rfl
  · obtain ⟨block', hfind, hsplice⟩ := hblocks 1 _ rfl
    have hhomeless : ∀ model home, crowded.2.home? model = some home → home.index ≠ 1 := by
      intro model home hhome
      obtain rfl | rfl := hhomes model home hhome <;> decide
    have hentries := hsplice.other (by decide) hhomeless
    rw [Document.contents_of_find hfind, hentries]
    rfl
  · obtain ⟨block', hfind, hsplice⟩ := hblocks 3 _ rfl
    have hentries := hsplice.waited _ List.mem_cons_self rfl
    rw [Document.contents_of_find hfind, hentries]

end Members

end Polyglot
