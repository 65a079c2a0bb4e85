import Polyglot.Proofs.TypeScript.Additions

/-! # Integrity of TypeScript files

What is true of a TypeScript file throughout a session. Its document has tiers; models set blocks
aside that belong to no method, and what waits for a model belongs to one. Hence settling never
fails once all models are declared, and keeps the tiers in order.
-/

namespace Polyglot.TypeScript

open Document

variable {file : File} {call : Call} {addition : Addition} {early : List Member}

/-- The document has tiers, methods wait in blocks of methods, and go to blocks of types. -/
structure Sound (file : File) : Prop where
  tiered : file.document.Tiered
  homes : ∀ home ∈ file.members.homes, home.2.index < file.document.blocks.size ∧
    file.document.ownerAt home.2 = none ∧ home.2 ≠ .root
  waiting : ∀ member ∈ file.members.waiting, (file.document.ownerAt member.block).isSome

namespace Sound

theorem start : Sound {} where
  tiered := .start
  homes := by
    rintro home ⟨⟩
  waiting := by
    rintro member ⟨⟩

/-- Files stay sound while something is added to them. -/
theorem grow (h : Sound file) (hforms : Forms file.document call addition)
    (hroom : file.document.blocks.size + addition.news.length ≤ Handle.count) :
    Sound (file.grow call addition) where
  tiered := h.tiered.add hforms.suits hroom
  homes := by
    have hold : ∀ home ∈ file.members.homes,
        home.2.index < (file.document.add addition).blocks.size ∧
          (file.document.add addition).ownerAt home.2 = none ∧ home.2 ≠ .root := by
      intro home hhome
      obtain ⟨hlt, hfree, hroot⟩ := h.homes home hhome
      rw [size_add, ownerAt_add_of_lt hlt]
      exact ⟨Nat.lt_add_right _ hlt, hfree, hroot⟩
    cases hforms with
    | model name fields header footer body =>
      have hlt : file.document.blocks.size < Handle.count := hroom
      intro home hhome
      rcases List.mem_cons.mp hhome with rfl | hhome
      · refine ⟨?_, ?_, next_ne_root h.tiered.nonempty hlt⟩
        · rw [Handle.index_next hlt, File.grow, size_add]
          exact Nat.lt_succ_self _
        · rw [File.grow, add, ownerAt_append]
          exact ownerAt_next (i := 0) hlt
      · exact hold home hhome
    | _ => exact hold
  waiting := by
    have hold : ∀ member ∈ file.members.waiting,
        ((file.document.add addition).ownerAt member.block).isSome := by
      intro member hmember
      exact (owned_add_iff hroom).mpr (.inl (h.waiting member hmember))
    cases hforms with
    | method owner name params returns header footer =>
      intro member hmember
      rcases List.mem_append.mp hmember with hmember | hmember
      · exact hold member hmember
      · rw [List.mem_singleton.mp hmember]
        exact (owned_add_iff hroom).mpr (.inr (.inr (List.mem_singleton.mpr rfl)))
    | _ => exact hold

/-- Methods that wait for declared models can be moved. -/
theorem movable (h : Sound file) (hwait : ∀ member ∈ early, member ∈ file.members.waiting)
    (hstray : file.members.firstStray? early = none) {pair : Handle × Handle}
    (hpair : pair ∈ file.members.moves early) :
    pair.1.index < file.document.blocks.size ∧ pair.2.index < file.document.blocks.size ∧
      (file.document.ownerAt pair.1).isSome ∧ file.document.ownerAt pair.2 = none ∧
      pair.2 ≠ .root := by
  obtain ⟨member, hmember, hsource, htarget⟩ := Members.exists_of_mem_moves hstray hpair
  have howned := h.waiting member (hwait member hmember)
  rw [← hsource] at howned
  obtain ⟨hlt, hfree, hroot⟩ := h.homes _ htarget
  exact ⟨lt_of_owned howned, hlt, howned, hfree, hroot⟩

end Sound

/-! ### Rendering -/

/-- The file with all waiting methods in their models. -/
def File.settled (file : File) : File where
  document := file.document.moveEach (file.members.moves file.members.waiting)
  members := { file.members with waiting := [] }

/-- A method without a model is found before anything is moved. -/
theorem render_of_stray {stray : Member}
    (h : file.members.firstStray? file.members.waiting = some stray) :
    File.render file = .error (.brokenReference stray.model stray.method) file := by
  have hsettle : File.settle file = .error (.brokenReference stray.model stray.method) file := by
    simp [File.settle, Step.focus, Members.settle_of_stray file.document h]
  exact Step.bind_of_error hsettle

namespace Sound

theorem settled (h : Sound file)
    (hstray : file.members.firstStray? file.members.waiting = none) : Sound file.settled where
  tiered := h.tiered.moveEach fun _ hpair => h.movable (fun _ => id) hstray hpair
  homes home hhome := by
    simpa [File.settled] using h.homes home hhome
  waiting := by
    rintro member ⟨⟩

theorem render_of_no_stray (h : Sound file)
    (hstray : file.members.firstStray? file.members.waiting = none) :
    File.render file = Step.ofExcept file.settled.document.render file.settled := by
  have hmove := moveAll_eq_moveEach fun pair hpair =>
    have hmovable := h.movable (fun _ => id) hstray hpair
    ⟨hmovable.1, hmovable.2.1⟩
  have hsettle : File.settle file = .ok () file.settled := by
    simp [File.settle, Step.focus, Members.settle_of_settled hstray hmove, File.settled]
  exact Step.bind_of_ok hsettle

/-- Files stay sound when they are rendered. -/
theorem rendered (h : Sound file) : Sound (Step.state (File.render file)) := by
  cases hstray : file.members.firstStray? file.members.waiting with
  | some stray =>
    rw [render_of_stray hstray]
    exact h
  | none =>
    rw [h.render_of_no_stray hstray, Step.state_ofExcept]
    exact h.settled hstray

end Sound

/-! ### Sessions -/

/-- What holds at the beginning and is kept by every addition, every refusal and every rendering of
a sound file holds throughout a session, as long as there are handles for all blocks. -/
theorem sound_induction {P : Transcript → File → Prop} (hstart : P [] {})
    (hgrow : ∀ past call addition file, Sound file → P past file →
      additionOf file.document call = .ok addition →
      file.document.blocks.size + addition.news.length ≤ Handle.count →
      P (past ++ [(.call call, .ok (.reply (addition.reply file.document.blocks.size)))])
        (file.grow call addition))
    (hrefused : ∀ past call fault file, Sound file → P past file →
      P (past ++ [(.call call, .error fault)]) file)
    (hrender : ∀ past file (outcome : Except Fault String), Sound file → P past file →
      P (past ++ [(.render, outcome.map .text)]) file ∧
        P (past ++ [(.render, outcome.map .text)]) file.settled)
    (requests : List Request)
    (hroom : (Request.session File.render requests {}).document.blocks.size ≤ Handle.count) :
    Sound (Request.session File.render requests {}) ∧
      P (Request.transcript File.render requests {}) (Request.session File.render requests {}) := by
  refine (Request.session_induction (P := fun past file =>
    Handle.root.index < file.document.blocks.size ∧
      (file.document.blocks.size ≤ Handle.count → Sound file ∧ P past file))
    ⟨Nat.zero_lt_one, fun _ => ⟨.start, hstart⟩⟩ ?_ ?_ ?_ requests).2 hroom
  · rintro past call reply file file' ⟨hroot, hfile⟩ hrun
    have hsize := size_le_of_run hroot call
    rw [hrun] at hsize
    refine ⟨Nat.lt_of_lt_of_le hroot hsize, ?_⟩
    intro hroom
    obtain ⟨hsound, hpast⟩ := hfile (Nat.le_trans hsize hroom)
    obtain ⟨addition, haddition, hfits, rfl, rfl⟩ := exists_addition hroot hrun hroom
    exact ⟨hsound.grow (forms_of_addition haddition) hfits,
      hgrow past call addition file hsound hpast haddition hfits⟩
  · rintro past call fault file file' ⟨hroot, hfile⟩ hrun
    have hkept := clean_run hroot call
    rw [hrun] at hkept
    obtain rfl : file = file' := hkept
    refine ⟨hroot, ?_⟩
    intro hroom
    obtain ⟨hsound, hpast⟩ := hfile hroom
    exact ⟨hsound, hrefused past call fault file hsound hpast⟩
  · rintro past file ⟨hroot, hfile⟩
    have hsize := preserves_render file.document.blocks.size rfl
    refine ⟨Nat.lt_of_lt_of_eq hroot hsize.symm, ?_⟩
    intro hroom
    rw [hsize] at hroom
    obtain ⟨hsound, hpast⟩ := hfile hroom
    cases hstray : file.members.firstStray? file.members.waiting with
    | some stray =>
      rw [render_of_stray hstray]
      exact ⟨hsound, (hrender past file _ hsound hpast).1⟩
    | none =>
      rw [hsound.render_of_no_stray hstray, Step.state_ofExcept]
      exact ⟨hsound.settled hstray, (hrender past file _ hsound hpast).2⟩

/-- Files are sound throughout a session. -/
theorem sound_of_session (requests : List Request)
    (hroom : (Request.session File.render requests {}).document.blocks.size ≤ Handle.count) :
    Sound (Request.session File.render requests {}) :=
  (sound_induction (P := fun _ _ => True) trivial (fun _ _ _ _ _ _ _ _ => trivial)
    (fun _ _ _ _ _ _ => trivial) (fun _ _ _ _ _ => ⟨trivial, trivial⟩) requests hroom).1

end Polyglot.TypeScript
