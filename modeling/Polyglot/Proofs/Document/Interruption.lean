import Polyglot.Proofs.Document.Splicing

/-! # Settling that stops

Models are looked for before anything moves, blocks only while methods are moving. So a fault about
a model leaves everything as it was, but one about a block does not: the methods before it have
moved, its own block has been emptied, and nothing waits any more.
-/

namespace Polyglot

namespace Document

variable {document : Document} {pair : Handle × Handle} {handle : Handle}

/-- The block that moving from one block to another does not find; the one moved from is looked for
first. -/
def missing? (document : Document) (pair : Handle × Handle) : Option Handle :=
  if pair.1.index < document.blocks.size then
    if pair.2.index < document.blocks.size then none else some pair.2
  else some pair.1

theorem missing?_eq_none_iff : document.missing? pair = none ↔
    pair.1.index < document.blocks.size ∧ pair.2.index < document.blocks.size := by
  by_cases hsource : pair.1.index < document.blocks.size <;>
    by_cases htarget : pair.2.index < document.blocks.size <;>
      simp [missing?, hsource, htarget]

/-- Only the number of blocks matters. -/
theorem missing?_congr {document' : Document} (h : document'.blocks.size = document.blocks.size) :
    document'.missing? pair = document.missing? pair := by
  rw [missing?, missing?, h]

/-- A block that is not there cannot be emptied. -/
theorem clear_of_not_lt (h : ¬ handle.index < document.blocks.size) :
    document.clear handle = document := by
  rw [clear]
  apply congrArg mk
  apply Array.ext_getElem?
  intro i
  rw [Array.getElem?_modify]
  by_cases hi : handle.index = i
  · rw [if_pos hi, Array.getElem?_eq_none (by omega)]
    rfl
  · rw [if_neg hi]

theorem takeAll_of_not_lt (h : ¬ handle.index < document.blocks.size) :
    takeAll handle document = .error (.invalidBlock handle) document := by
  have hfind : document.blocks[handle.index]? = none := Array.getElem?_eq_none (by omega)
  rw [takeAll, Step.bind_of_ok (Step.get_apply document), blockAt, hfind]
  rfl

/-- A move that does not find one of its blocks has emptied the block that it moves from, if this
one is there. -/
theorem moveAll_of_missing {rest : List (Handle × Handle)}
    (h : document.missing? pair = some handle) :
    moveAll (pair :: rest) document = .error (.invalidBlock handle) (document.clear pair.1) := by
  rw [moveAll]
  by_cases hsource : pair.1.index < document.blocks.size
  · have htarget : ¬ pair.2.index < document.blocks.size := by
      intro htarget
      rw [missing?_eq_none_iff.mpr ⟨hsource, htarget⟩] at h
      cases h
    obtain rfl : pair.2 = handle := by simpa [missing?, hsource, htarget] using h
    rw [Step.bind_of_ok (takeAll_of_lt hsource)]
    exact Step.bind_of_error (update_of_not_lt _ (by simpa using htarget))
  · obtain rfl : pair.1 = handle := by simpa [missing?, hsource] using h
    rw [Step.bind_of_error (takeAll_of_not_lt hsource), clear_of_not_lt hsource]

/-- Moves before the first one that does not find its blocks have happened. -/
theorem moveAll_append_of_missing {before : List (Handle × Handle)}
    (hbefore : ∀ earlier ∈ before, document.missing? earlier = none)
    (h : document.missing? pair = some handle) (after : List (Handle × Handle)) :
    moveAll (before ++ pair :: after) document =
      .error (.invalidBlock handle) ((document.moveEach before).clear pair.1) := by
  induction before generalizing document with
  | nil => exact moveAll_of_missing h
  | cons first rest ih =>
    obtain ⟨hsource, htarget⟩ := missing?_eq_none_iff.mp (hbefore first List.mem_cons_self)
    have hsize : (document.move first.1 first.2).blocks.size = document.blocks.size := size_move
    rw [List.cons_append, moveAll_cons_of_lt hsource htarget, moveEach_cons]
    apply ih
    · intro earlier hearlier
      rw [missing?_congr hsize]
      exact hbefore earlier (List.mem_cons_of_mem first hearlier)
    · rw [missing?_congr hsize]
      exact h

end Document

namespace Members

variable {document : Document} {members : Members}

/-- Where a waiting method is and where it goes. -/
def moveOf (members : Members) (member : Member) : Handle × Handle :=
  (member.block, (members.home? member.model).getD .root)

/-- Settling stops at a waiting method: those before it find their blocks, and it does not. -/
structure StopsAt (document : Document) (members : Members) (before : List Member)
    (member : Member) (handle : Handle) : Prop where
  waiting : ∃ after, members.waiting = before ++ member :: after
  found : ∀ earlier ∈ before, document.missing? (members.moveOf earlier) = none
  missing : document.missing? (members.moveOf member) = some handle

/-- Either every waiting method finds its blocks, or there is a first one that does not. -/
theorem exists_stopsAt (document : Document) (members : Members) :
    (∀ member ∈ members.waiting, document.missing? (members.moveOf member) = none) ∨
      ∃ before member handle, StopsAt document members before member handle := by
  cases hfind : members.waiting.find? fun member =>
      (document.missing? (members.moveOf member)).isSome with
  | none =>
    left
    simpa using hfind
  | some member =>
    right
    obtain ⟨hsome, before, after, hsplit, hbefore⟩ := List.find?_eq_some_iff_append.mp hfind
    obtain ⟨handle, hmissing⟩ := Option.isSome_iff_exists.mp hsome
    refine ⟨before, member, handle, ⟨after, hsplit⟩, ?_, hmissing⟩
    intro earlier hearlier
    simpa using hbefore earlier hearlier

/-- What settling leaves if it stops at a method whose model is there. -/
theorem settle_of_stopsAt {before : List Member} {member : Member} {handle : Handle}
    (hstray : members.firstStray? members.waiting = none)
    (h : StopsAt document members before member handle) :
    settle (document, members) = .error (.invalidBlock handle)
      ((document.moveEach (members.moves before)).clear member.block,
        { members with waiting := [] }) := by
  obtain ⟨after, hsplit⟩ := h.waiting
  have hmoves : members.moves members.waiting =
      members.moves before ++ members.moveOf member :: members.moves after := by
    rw [hsplit]
    simp [moves, moveOf]
  have hbefore : ∀ earlier ∈ members.moves before, document.missing? earlier = none := by
    intro earlier hearlier
    obtain ⟨other, hother, rfl⟩ := List.mem_map.mp hearlier
    exact h.found other hother
  have hmove := Document.moveAll_append_of_missing hbefore h.missing (members.moves after)
  rw [← hmoves] at hmove
  rw [settle_eq_focus document hstray, Step.focus_of_error hmove]
  rfl

/-- A failed settling leaves everything as it was exactly if some waiting method has no model.
Otherwise it has stopped at the first method that does not find its blocks: the methods before it
have moved, its own block is empty, and nothing waits any more. -/
theorem failed_settling_untouched_iff (document : Document) (members : Members) (fault : Fault)
    (state : Document × Members) (h : settle (document, members) = .error fault state) :
    (state = (document, members) ↔
      ∃ member ∈ members.waiting, members.home? member.model = none) ∧
    ((∀ member ∈ members.waiting, ∃ home, members.home? member.model = some home) →
      ∃ before member handle, StopsAt document members before member handle ∧
        fault = .invalidBlock handle ∧
        state = ((document.moveEach (members.moves before)).clear member.block,
          { members with waiting := [] })) := by
  cases hstray : members.firstStray? members.waiting with
  | some stray =>
    have hnone : members.home? stray.model = none := by simpa using List.find?_some hstray
    have hmem : stray ∈ members.waiting := List.mem_of_find?_eq_some hstray
    rw [settle_of_stray document hstray] at h
    cases h
    refine ⟨iff_of_true rfl ⟨stray, hmem, hnone⟩, ?_⟩
    intro hall
    obtain ⟨home, hhome⟩ := hall stray hmem
    rw [hnone] at hhome
    cases hhome
  | none =>
    have hall := firstStray?_eq_none_iff.mp hstray
    rcases exists_stopsAt document members with hfound | ⟨before, member, handle, hstops⟩
    · -- Every method finds its blocks, so that settling does not fail.
      have hmove : Document.moveAll (members.moves members.waiting) document =
          .ok () (document.moveEach (members.moves members.waiting)) := by
        apply Document.moveAll_eq_moveEach
        intro pair hpair
        obtain ⟨member, hmember, rfl⟩ := List.mem_map.mp hpair
        exact Document.missing?_eq_none_iff.mp (hfound member hmember)
      rw [settle_of_settled hstray hmove] at h
      cases h
    · rw [settle_of_stopsAt hstray hstops] at h
      cases h
      refine ⟨iff_of_false ?_ ?_, fun _ => ⟨before, member, handle, hstops, rfl, rfl⟩⟩
      · intro hsame
        obtain ⟨after, hsplit⟩ := hstops.waiting
        have hwaiting : [] = members.waiting := congrArg (fun state => state.2.waiting) hsame
        rw [hsplit] at hwaiting
        simp at hwaiting
      · rintro ⟨stray, hmem, hnone⟩
        obtain ⟨home, hhome⟩ := hall stray hmem
        rw [hnone] at hhome
        cases hhome

/-- The second of three waiting methods goes to a block that is not there. -/
def misdirected : Document × Members where
  fst := { blocks := #[
    {},
    { entries := #[.line "old"] },
    { owner := some "Till", entries := #[.line "a"] },
    { owner := some "Tax", entries := #[.line "b"] },
    { owner := some "Till", entries := #[.line "c"] }] }
  snd := {
    homes := [("Tax", ⟨9⟩), ("Till", ⟨1⟩)]
    waiting := [⟨"Till", "count", ⟨2⟩⟩, ⟨"Tax", "rate", ⟨3⟩⟩, ⟨"Till", "close", ⟨4⟩⟩] }

theorem failed_settling_untouched_iff_misdirected : ∃ state,
    settle misdirected = .error (.invalidBlock ⟨9⟩) state ∧ state ≠ misdirected ∧
      state.1.contents ⟨1⟩ = [.line "old", .line "a"] ∧ state.1.contents ⟨3⟩ = [] ∧
      state.1.contents ⟨4⟩ = [.line "c"] ∧ state.2.waiting = [] := by
  have hsettle : settle misdirected = .error (.invalidBlock ⟨9⟩)
    ((misdirected.1.move ⟨2⟩ ⟨1⟩).clear ⟨3⟩, { misdirected.2 with waiting := [] }) := rfl
  have huntouched := (failed_settling_untouched_iff misdirected.1 misdirected.2 _ _ hsettle).1
  refine ⟨_, hsettle, ?_, rfl, rfl, rfl, rfl⟩
  intro hsame
  obtain ⟨member, hmember, hnone⟩ := huntouched.mp hsame
  revert member
  decide

/-- A method that waits for a model whose block is not there is lost: it stands in no block, and it
does not wait. -/
theorem settling_loses_method : ∃ document,
    (do let block ← Document.newBlock (some "Till")
        Document.addLine block "count"
        return block : Step Document Handle) {} = .ok ⟨1⟩ document ∧
      document.contents ⟨1⟩ = [.line "count"] ∧
      ∃ members',
        settle (document, (({} : Members).register "Till" ⟨7⟩).defer ⟨"Till", "count", ⟨1⟩⟩) =
          .error (.invalidBlock ⟨7⟩) ({ blocks := #[{}, { owner := some "Till" }] }, members') ∧
        members'.waiting = [] :=
  ⟨_, rfl, rfl, _, rfl, rfl⟩

end Members

end Polyglot
