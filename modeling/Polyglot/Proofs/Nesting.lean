import Polyglot.Proofs.Go.Additions
import Polyglot.Proofs.TypeScript.Integrity

/-! # Nesting

Whatever calls are made of a file and whenever it is rendered, its document is a forest, as long as
there are handles for all of its blocks. So rendering comes to an end, and the only thing that can
be wrong with a file is a method whose model is not declared.
-/

namespace Polyglot

namespace Document

/-- The document is a forest. Its emission is not cut short by the bound on its depth, goes into no
block twice, and shows the lines of all the blocks that it goes into. -/
structure Showable (document : Document) : Prop where
  forest : document.Forest
  unbounded : ∀ depth, document.blocks.size ≤ depth → ∀ (ε : Type) [Sink ε],
    (document.emitBlock depth 0 .root : Step ε Unit) = document.emit
  once : document.visits.Nodup
  emits : ∃ lines : List Line,
    (∀ (ε : Type) [Sink ε] (sink : ε), document.emit sink = .ok () (Line.putAll sink lines)) ∧
      (lines.map Line.text).Perm (document.visits.flatMap document.textsAt)

theorem Tiered.showable {document : Document} (h : document.Tiered) : document.Showable where
  forest := h.forest
  unbounded _ hdepth _ _ := h.forest.emitBlock_eq hdepth h.nonempty 0
  once := h.forest.nodup_visitsOf (Nat.le_refl _) h.nonempty
  emits := h.forest.emits (Nat.le_refl _) h.nonempty 0

end Document

/-- A text, or the name of a method whose model is not declared. -/
def TextOrStray (outcome : Except Fault String) : Prop :=
  (∃ text, outcome = .ok text) ∨ ∃ model method, outcome = .error (.brokenReference model method)

theorem TypeScript.Sound.textOrStray {file : TypeScript.File} (h : TypeScript.Sound file) :
    TextOrStray (Step.result (TypeScript.File.render file)) := by
  cases hstray : file.members.firstStray? file.members.waiting with
  | some stray =>
    rw [TypeScript.render_of_stray hstray]
    exact .inr ⟨stray.model, stray.method, rfl⟩
  | none =>
    rw [h.render_of_no_stray hstray, Step.result_ofExcept]
    have hsettled := (h.settled hstray).tiered
    exact .inl (hsettled.forest.exists_renderAfter hsettled.nonempty _)

theorem Go.textOrStray_render {file : Go.File} (h : file.document.Tiered) :
    TextOrStray (Step.result (Go.File.render file)) := by
  cases hstray : file.firstStray? with
  | some stray =>
    rw [Go.render_of_stray hstray]
    exact .inr ⟨stray.1, stray.2, rfl⟩
  | none =>
    obtain ⟨root, hfind⟩ : ∃ root, file.document.blocks[Handle.root.index]? = some root :=
      ⟨_, Array.getElem?_eq_getElem h.nonempty⟩
    rw [Go.render_of_no_stray hstray, Step.result_ofExcept, Go.renderFile,
      Document.isEmptyAt_of_find hfind]
    cases root.entries.isEmpty with
    | true => exact .inl (h.forest.exists_renderAfter h.nonempty _)
    | false => exact .inl (h.forest.exists_renderAfter h.nonempty _)

/-- After every session the document of a file is a forest, also once members are settled, and the
file can be rendered if all models are declared. -/
theorem session_showable (requests : List Request) :
    ((Request.session TypeScript.File.render requests {}).document.blocks.size ≤ Handle.count →
      (Request.session TypeScript.File.render requests {}).document.Showable ∧
      (Step.state (TypeScript.File.render
        (Request.session TypeScript.File.render requests {}))).document.Showable ∧
      TextOrStray (Step.result
        (TypeScript.File.render (Request.session TypeScript.File.render requests {})))) ∧
    ∀ package, (Request.session Go.File.render requests { package }).document.blocks.size ≤
        Handle.count →
      (Request.session Go.File.render requests { package }).document.Showable ∧
      TextOrStray (Step.result
        (Go.File.render (Request.session Go.File.render requests { package }))) := by
  constructor
  · intro hroom
    have hsound := TypeScript.sound_of_session requests hroom
    exact ⟨hsound.tiered.showable, hsound.rendered.tiered.showable, hsound.textOrStray⟩
  · intro package hroom
    have htiered := Go.tiered_of_session package requests hroom
    exact ⟨htiered.showable, Go.textOrStray_render htiered⟩

/-- A method is written and rendered before its model is declared, and one statement goes astray. -/
def earlyMethod : List Request :=
  [.call (.method "Till" "count" [] none), .call (.act ⟨2⟩ (.giveBack (.int 1))),
    .call (.act ⟨9⟩ (.giveBack (.int 2))), .render, .call (.model "Till" []), .render]

theorem session_showable_earlyMethod :
    (Request.session TypeScript.File.render earlyMethod {}).document.Showable ∧
    (Request.session TypeScript.File.render earlyMethod {}).document.RefersTo ⟨3⟩ ⟨2⟩ ∧
    (Request.session Go.File.render earlyMethod { package := "till" }).document.Showable := by
  obtain ⟨htypeScript, hgo⟩ := session_showable earlyMethod
  refine ⟨(htypeScript (by decide +kernel)).1, ?_, (hgo "till" (by decide +kernel)).1⟩
  change (⟨2⟩ : Handle) ∈ Document.children _
  decide +kernel

end Polyglot
