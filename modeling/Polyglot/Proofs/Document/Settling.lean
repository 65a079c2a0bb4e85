import Mathlib.Data.List.Basic
import Polyglot.Proofs.Document.Views

/-! # Settling

Moving the contents of some blocks to the ends of others. If every block is moved once and none of
them is moved to, every other block ends up with its own contents, followed by what was moved to
it, in order.
-/

namespace Polyglot

namespace Document

/-- What moves to a block. -/
def moves (document : Document) (pairs : List (Handle × Handle)) (handle : Handle) : List Entry :=
  (pairs.filter fun pair => pair.2 = handle).flatMap fun pair => document.contents pair.1

theorem moves_cons (document : Document) (source target handle : Handle)
    (rest : List (Handle × Handle)) :
    document.moves ((source, target) :: rest) handle =
      (if target = handle then document.contents source else []) ++
        document.moves rest handle := by
  by_cases h : target = handle <;> simp [moves, h]

/-- What becomes of a block when another one is moved. -/
theorem find_move {document : Document} {source target handle : Handle} (h : handle ≠ source) :
    (document.move source target).blocks[handle.index]? =
      (document.blocks[handle.index]?).map fun block =>
        { block with entries := block.entries ++
          (if target = handle then document.contents source else []).toArray } := by
  have hsource : source.index ≠ handle.index := fun heq => h (Handle.index_inj heq).symm
  simp only [move, append, clear, Array.getElem?_modify, hsource, if_false]
  by_cases heq : target = handle
  · simp [heq]
  · have htarget : target.index ≠ handle.index := fun hindex => heq (Handle.index_inj hindex)
    simp [heq, htarget]

/-- What becomes of the blocks that are not moved. -/
theorem find_moveEach (document : Document) {pairs : List (Handle × Handle)}
    (hsources : (pairs.map Prod.fst).Nodup)
    (hdisjoint : ∀ pair ∈ pairs, pair.2 ∉ pairs.map Prod.fst) {handle : Handle}
    (hhandle : handle ∉ pairs.map Prod.fst) :
    (document.moveEach pairs).blocks[handle.index]? =
      (document.blocks[handle.index]?).map fun block =>
        { block with entries := block.entries ++ (document.moves pairs handle).toArray } := by
  induction pairs generalizing document with
  | nil => simp [moves]
  | cons pair rest ih =>
    obtain ⟨source, target⟩ := pair
    rw [List.map_cons, List.nodup_cons] at hsources
    rw [List.map_cons, List.mem_cons, not_or] at hhandle
    -- The first move neither empties nor fills a block that is still to be moved.
    have hcontents : ∀ pair ∈ rest, (document.move source target).contents pair.1 =
        document.contents pair.1 := by
      intro pair hpair
      have hmem : pair.1 ∈ rest.map Prod.fst := List.mem_map_of_mem hpair
      apply contents_move_of_ne
      · rintro rfl
        exact hsources.1 hmem
      · rintro rfl
        exact hdisjoint (source, pair.1) List.mem_cons_self (List.mem_cons_of_mem _ hmem)
    have hmoves : (document.move source target).moves rest handle = document.moves rest handle := by
      apply List.flatMap_congr
      intro pair hpair
      exact hcontents pair (List.mem_of_mem_filter hpair)
    have hrest : ∀ pair ∈ rest, pair.2 ∉ rest.map Prod.fst := by
      intro pair hpair hmem
      exact hdisjoint pair (List.mem_cons_of_mem _ hpair) (List.mem_cons_of_mem _ hmem)
    rw [moveEach_cons, ih _ hsources.2 hrest hhandle.2, find_move hhandle.1, hmoves, moves_cons]
    simp [Function.comp_def]

theorem moveAll_of_disjoint (document : Document) {pairs : List (Handle × Handle)}
    (hvalid : ∀ pair ∈ pairs, pair.1.index < document.blocks.size ∧
      pair.2.index < document.blocks.size)
    (hsources : (pairs.map Prod.fst).Nodup)
    (hdisjoint : ∀ pair ∈ pairs, pair.2 ∉ pairs.map Prod.fst) :
    ∃ document', moveAll pairs document = .ok () document' ∧
      document'.blocks.size = document.blocks.size ∧
      ∀ handle ∉ pairs.map Prod.fst, document'.blocks[handle.index]? =
        (document.blocks[handle.index]?).map fun block =>
          { block with entries := block.entries ++ (document.moves pairs handle).toArray } :=
  ⟨document.moveEach pairs, moveAll_eq_moveEach hvalid, size_moveEach,
    fun _ hhandle => find_moveEach document hsources hdisjoint hhandle⟩

/-- Moving adds and takes away no block, even if it stops on the way. -/
theorem preserves_moveAll (size : Nat) (pairs : List (Handle × Handle)) :
    Step.Preserves (fun document => document.blocks.size = size) (moveAll pairs) := by
  have hupdate : ∀ handle change,
      Step.Preserves (fun document => document.blocks.size = size) (update handle change) := by
    intro handle change document h
    by_cases hlt : handle.index < document.blocks.size
    · rw [update_of_lt change hlt]
      simpa [Step.state] using h
    · rw [update_of_not_lt change hlt]
      exact h
  induction pairs with
  | nil => exact Step.Preserves.pure ()
  | cons pair rest ih =>
    refine Step.Preserves.bind ?_ fun entries => (hupdate _ _).bind fun _ => ih
    refine Step.Preserves.bind Step.Preserves.get fun document => ?_
    refine Step.Preserves.bind (Step.Preserves.ofExcept (document.blockAt pair.1)) fun block => ?_
    exact (hupdate _ _).bind fun _ => Step.Preserves.pure _

end Document

namespace Members

/-- The first waiting method whose model has set no block aside. -/
def firstStray? (members : Members) (waiting : List Member) : Option Member :=
  waiting.find? fun member => (members.home? member.model).isNone

/-- Each waiting method with the block that it goes to. -/
def moves (members : Members) (waiting : List Member) : List (Handle × Handle) :=
  waiting.map fun member => (member.block, (members.home? member.model).getD .root)

/-- Where methods go depends on the blocks of their own models only. -/
theorem moves_congr {members members' : Members} {waiting : List Member}
    (h : ∀ member ∈ waiting, members'.home? member.model = members.home? member.model) :
    members'.moves waiting = members.moves waiting := by
  apply List.map_congr_left
  intro member hmember
  rw [h member hmember]

theorem firstStray?_congr {members members' : Members} {waiting : List Member}
    (h : ∀ member ∈ waiting, members'.home? member.model = members.home? member.model) :
    members'.firstStray? waiting = members.firstStray? waiting := by
  induction waiting with
  | nil => rfl
  | cons member rest ih =>
    have hrest := ih fun other hother => h other (List.mem_cons_of_mem _ hother)
    rw [firstStray?, firstStray?] at hrest
    rw [firstStray?, firstStray?, List.find?_cons, List.find?_cons, h member List.mem_cons_self,
      hrest]

/-- If no waiting method is a stray, each goes to a block that its model has set aside. -/
theorem mem_homes {members : Members} {waiting : List Member} {member : Member}
    (h : members.firstStray? waiting = none) (hmember : member ∈ waiting) :
    (member.model, (members.home? member.model).getD .root) ∈ members.homes := by
  cases hhome : members.home? member.model with
  | none => simpa [hhome] using List.find?_eq_none.mp h member hmember
  | some block =>
    obtain ⟨first, second, hsplit, -⟩ := List.lookup_eq_some_iff.mp hhome
    simp [hsplit]

theorem exists_of_mem_moves {members : Members} {waiting : List Member}
    (h : members.firstStray? waiting = none) {pair : Handle × Handle}
    (hpair : pair ∈ members.moves waiting) :
    ∃ member ∈ waiting, pair.1 = member.block ∧ (member.model, pair.2) ∈ members.homes := by
  obtain ⟨member, hmember, rfl⟩ := List.mem_map.mp hpair
  exact ⟨member, hmember, rfl, mem_homes h hmember⟩

theorem homesOf_of_stray {members : Members} {waiting : List Member} {stray : Member}
    (h : members.firstStray? waiting = some stray) :
    members.homesOf waiting = .error (.brokenReference stray.model stray.method) := by
  induction waiting with
  | nil => simp [firstStray?] at h
  | cons member rest ih =>
    rw [firstStray?, List.find?_cons] at h
    rw [homesOf, homeOf]
    cases hhome : members.home? member.model with
    | none =>
      obtain rfl : member = stray := by simpa [hhome] using h
      rfl
    | some block =>
      have hrest := ih (by simpa [hhome, firstStray?] using h)
      simp [hrest, bind, Except.bind]

theorem homesOf_of_settled {members : Members} {waiting : List Member}
    (h : members.firstStray? waiting = none) :
    members.homesOf waiting = .ok ((members.moves waiting).map Prod.snd) := by
  induction waiting with
  | nil => rfl
  | cons member rest ih =>
    rw [firstStray?, List.find?_cons] at h
    rw [homesOf, homeOf]
    cases hhome : members.home? member.model with
    | none => simp [hhome] at h
    | some block =>
      have hrest := ih (by simpa [hhome, firstStray?] using h)
      simp [hrest, bind, Except.bind, pure, Except.pure, moves, hhome]

theorem settle_of_stray (document : Document) {members : Members} {stray : Member}
    (h : members.firstStray? members.waiting = some stray) :
    settle (document, members) =
      .error (.brokenReference stray.model stray.method) (document, members) := by
  rw [settle, Step.bind_of_ok (Step.get_apply _)]
  simp only [homesOf_of_stray h]
  rfl

/-- Without a stray the methods move, and nothing waits whatever comes of it. -/
theorem settle_eq_focus (document : Document) {members : Members}
    (h : members.firstStray? members.waiting = none) :
    settle (document, members) = Step.focus Prod.fst (fun document state => (document, state.2))
      (Document.moveAll (members.moves members.waiting))
      (document, { members with waiting := [] }) := by
  have hpairs : (members.waiting.map (·.block)).zip
      ((members.moves members.waiting).map Prod.snd) = members.moves members.waiting := by
    simp [moves, List.zip_map', Function.comp_def]
  rw [settle, Step.bind_of_ok (Step.get_apply _)]
  simp only [homesOf_of_settled h]
  change Step.focus Prod.fst (fun document state => (document, state.2))
    (Document.moveAll ((members.waiting.map (·.block)).zip _))
    (document, { members with waiting := [] }) = _
  rw [hpairs]

theorem settle_of_settled {document document' : Document} {members : Members}
    (h : members.firstStray? members.waiting = none)
    (hmove : Document.moveAll (members.moves members.waiting) document = .ok () document') :
    settle (document, members) = .ok () (document', { members with waiting := [] }) := by
  rw [settle_eq_focus document h, Step.focus_of_ok hmove]

end Members

end Polyglot
