import Polyglot.Proofs.Session
import Polyglot.Proofs.TestFile.Pages
import Polyglot.Proofs.TestFile.Passages
import Polyglot.TestFile.Jest

/-! # Passages of Jest files

The test of a procedure is a passage that depends on the procedure alone. A procedure that is
refused may leave a block with some of its lines behind, but no passage refers to that block.
-/

namespace Polyglot.Jest

open Document

/-! ### Spelling -/

/-- The checks of the side effects. -/
def effectTexts : List SideEffect → Except Fault (List String)
  | [] => return []
  | effect :: rest => do
    let text ← expectation ("model." ++ effect.field) effect.expected
    let texts ← effectTexts rest
    return text :: texts

def callText (procedure : Procedure) (inputs : List String) : String :=
  "model." ++ procedure.method ++ "(" ++ Text.commaSeparated inputs ++ ")"

/-- What the test does, given the spelling of the inputs. -/
def bodyTexts (procedure : Procedure) (inputs : List String) : Except Fault (List String) :=
  match procedure.output with
  | some output => do
    let check ← expectation "output" output
    let effects ← effectTexts procedure.sideEffects
    return ("const model = new " ++ testModel ++ "();") ::
      ("const output = " ++ callText procedure inputs ++ ";") :: check :: effects
  | none => do
    let effects ← effectTexts procedure.sideEffects
    return ("const model = new " ++ testModel ++ "();") ::
      (callText procedure inputs ++ ";") :: effects

/-- The test of a procedure, given what it does. -/
def frame (procedure : Procedure) (texts : List String) : Passage where
  header := "test(" ++ Text.quote procedure.name ++ ", () => \x7b"
  texts := texts
  footer := "\x7d);"

/-- The test of a procedure. -/
def passage (procedure : Procedure) : Except Fault Passage := do
  let inputs ← TypeScript.valueTexts procedure.inputs
  let texts ← bodyTexts procedure inputs
  return frame procedure texts

/-- The number of blocks that a procedure takes, whether or not it is refused. -/
def width (procedure : Procedure) : Nat :=
  match TypeScript.valueTexts procedure.inputs with
  | .ok _ => 1
  | .error _ => 0

/-! ### Writing -/

/-- A document on which spelling makes no notes. -/
def page : Page Document Unit where
  document := id
  notes _ := ()
  put document _ _ := document
  document_put _ _ _ := rfl
  notes_put _ _ _ := rfl
  put_put _ _ _ _ _ := rfl
  put_self _ := rfl

theorem page_onDocument {α : Type} (step : Step Document α) : page.onDocument step = step := by
  funext document
  change Step.focus id (fun part _ => part) step document = _
  rw [Step.focus, id]
  cases step document <;> rfl

theorem page_onNotes {α : Type} (outcome : Except Fault α) :
    page.onNotes (liftM outcome) = (liftM outcome : Step Document α) := by
  cases outcome <;> rfl

variable {document : Document} {procedure : Procedure}

theorem writes_addEffects (body : Handle) (effects : List SideEffect) :
    page.Writes body (liftM (effectTexts effects)) (addEffects body effects) := by
  induction effects with
  | nil => exact Page.Writes.pure
  | cons effect rest ih =>
    have hwrites := Page.Writes.spell (fun text => ih.line text)
      (liftM (expectation ("model." ++ effect.field) effect.expected))
    simpa only [effectTexts, addEffects, Step.lift_bind, Step.lift_pure, page_onDocument,
      page_onNotes] using hwrites

/-- Writes what the test does to its block. -/
def writeBody (procedure : Procedure) (inputs : List String) (body : Handle) :
    Step Document Unit := do
  addLine body ("const model = new " ++ testModel ++ "();")
  match procedure.output with
  | some output => do
    addLine body ("const output = " ++ callText procedure inputs ++ ";")
    addLine body (← expectation "output" output)
    addEffects body procedure.sideEffects
  | none => do
    addLine body (callText procedure inputs ++ ";")
    addEffects body procedure.sideEffects

/-- Shows the block of a test that is complete. -/
def finish (procedure : Procedure) (body : Handle) : Step Document Unit := do
  addLine .root ""
  place (frame procedure []).header body (frame procedure []).footer

theorem addProcedure_eq (procedure : Procedure) : addProcedure procedure = (do
    let inputs ← TypeScript.valueTexts procedure.inputs
    let body ← newBlock none
    writeBody procedure inputs body
    finish procedure body) := by
  rw [addProcedure]
  simp only [writeBody, callText, finish]
  cases procedure.output <;> simp only [bind_assoc] <;> rfl

theorem writes_writeBody (procedure : Procedure) (inputs : List String) (body : Handle) :
    page.Writes body (liftM (bodyTexts procedure inputs)) (writeBody procedure inputs body) := by
  have heffects := writes_addEffects body procedure.sideEffects
  rw [bodyTexts, writeBody]
  cases procedure.output with
  | none =>
    have hwrites := (heffects.line (callText procedure inputs ++ ";")).line
      ("const model = new " ++ testModel ++ "();")
    simpa only [Step.lift_bind, Step.lift_pure, bind_assoc, pure_bind, page_onDocument]
      using hwrites
  | some output =>
    have hcheck := Page.Writes.spell (fun text => heffects.line text)
      (liftM (expectation "output" output))
    have hwrites := (hcheck.line ("const output = " ++ callText procedure inputs ++ ";")).line
      ("const model = new " ++ testModel ++ "();")
    simpa only [Step.lift_bind, Step.lift_pure, bind_assoc, pure_bind, page_onDocument,
      page_onNotes] using hwrites

/-- What becomes of a procedure: its inputs cannot be spelled, or what follows them cannot, or its
passage is complete. -/
theorem addProcedure_cases (document : Document) (procedure : Procedure) :
    (∃ fault, passage procedure = .error fault ∧ width procedure = 0 ∧
      addProcedure procedure document = .error fault document) ∨
    (∃ fault texts, passage procedure = .error fault ∧ width procedure = 1 ∧
      addProcedure procedure document = .error fault (page.drafted texts () document)) ∨
    ∃ made, passage procedure = .ok made ∧ width procedure = 1 ∧
      addProcedure procedure document = .ok () ((page.drafted made.texts () document).append .root
        (.line "" :: made.entries (.next document.blocks.size))) := by
  rw [addProcedure_eq, passage, width]
  cases hinputs : TypeScript.valueTexts procedure.inputs with
  | error fault => exact .inl ⟨fault, rfl, rfl, rfl⟩
  | ok inputs =>
    right
    have hwrites := writes_writeBody procedure inputs
    cases htexts : bodyTexts procedure inputs with
    | error fault =>
      obtain ⟨texts, hstop⟩ := Page.newBlock_of_error hwrites (finish procedure) (s := document)
        (by rw [htexts]; rfl)
      rw [page_onDocument] at hstop
      refine .inl ⟨fault, texts, ?_, rfl, hstop⟩
      simp [htexts, bind, Except.bind]
    | ok texts =>
      have hwrite := Page.newBlock_of_ok hwrites (finish procedure) (s := document)
        (by rw [htexts]; rfl)
      rw [page_onDocument] at hwrite
      refine .inr ⟨frame procedure texts, ?_, rfl, ?_⟩
      · simp [htexts, bind, Except.bind, pure, Except.pure]
      · have hnext := Handle.index_next_le document.blocks.size
        have hsize : (page.drafted texts () document).blocks.size = document.blocks.size + 1 := by
          simp [Page.drafted, page]
        have hroot : Handle.root.index < (page.drafted texts () document).blocks.size := by
          rw [hsize]
          exact Nat.succ_pos _
        refine Eq.trans hwrite ?_
        refine Eq.trans (Step.bind_of_ok (addLine_of_lt hroot "")) ?_
        refine Eq.trans (place_of_lt ?_ _ _) ?_
        · rw [size_append, hsize]
          change (Handle.next document.blocks.size).index < _
          omega
        · rw [append_append]
          rfl

theorem size_addProcedure (document : Document) (procedure : Procedure) :
    (Step.state (addProcedure procedure document)).blocks.size =
      document.blocks.size + width procedure := by
  rcases addProcedure_cases document procedure with ⟨fault, -, hwidth, hrun⟩ |
    ⟨fault, texts, -, hwidth, hrun⟩ | ⟨made, -, hwidth, hrun⟩
  · rw [hrun, hwidth]
    rfl
  · rw [hrun, hwidth]
    simp [Step.state, Page.drafted, page]
  · rw [hrun, hwidth]
    simp [Step.state, Page.drafted, page]

/-- Every passage follows a blank line. -/
def join (items : List (List Entry)) : List Entry :=
  items.flatMap fun item => .line "" :: item

theorem prints_join {depth : Nat} {items : List (List Entry)} {paragraphs : List (List Line)}
    (h : List.Forall₂ (document.Prints depth 0) items paragraphs) :
    document.Prints depth 0 (join items) (paragraphs.flatMap fun lines => .blank :: lines) := by
  induction h with
  | nil => exact Prints.nil
  | cons hfirst hrest ih => exact (hfirst.line "").append ih

/-- A document shows the passages of the procedures that were accepted. -/
theorem shows_addProcedure {passages : List Passage} (h : document.Shows join passages)
    (procedure : Procedure)
    (hroom : (Step.state (addProcedure procedure document)).blocks.size ≤ Handle.count) :
    (Step.state (addProcedure procedure document)).Shows join
      (passages ++ (passage procedure).toOption.toList) := by
  rw [size_addProcedure] at hroom
  rcases addProcedure_cases document procedure with ⟨fault, hpassage, -, hrun⟩ |
    ⟨fault, texts, hpassage, hwidth, hrun⟩ | ⟨made, hpassage, hwidth, hrun⟩
  · rw [hrun, hpassage]
    simpa [Step.state, Except.toOption] using h
  · rw [hwidth] at hroom
    rw [hrun, hpassage, page.drafted_of_lt hroom]
    simpa [Step.state, Except.toOption, page] using h.extend _
  · rw [hwidth] at hroom
    have hlt : Handle.root.index < document.blocks.size := by
      obtain ⟨_, _, hroot⟩ := h
      exact (Array.getElem?_eq_some_iff.mp hroot).1
    rw [hrun, hpassage, page.drafted_of_lt hroom]
    change ((document.extend [made.block]).append .root _).Shows join (passages ++ [made])
    rw [append_extend hlt]
    apply h.add hroom made [.line ""]
    intro bodies _
    simp [join]

/-! ### Sessions -/

/-- Two files that are rendered alike, while there are handles for all blocks of the larger one. -/
structure Alike (file file' : File) : Prop where
  module_eq : file'.module = file.module
  size_le : file.document.blocks.size ≤ file'.document.blocks.size
  shows : file'.document.blocks.size ≤ Handle.count → ∃ passages,
    file.document.Shows join passages ∧ file'.document.Shows join passages

variable {file file' : File}

theorem Alike.fresh (module : String) : Alike { module } { module } where
  module_eq := rfl
  size_le := Nat.le_refl _
  shows _ := ⟨[], ⟨[], .nil, rfl⟩, ⟨[], .nil, rfl⟩⟩

theorem state_procedure (procedure : Procedure) (file : File) :
    Step.state (TestTarget.procedure procedure file) =
      { file with document := Step.state (addProcedure procedure file.document) } := by
  change Step.state (Step.focus _ _ (addProcedure procedure) file) = _
  rw [Step.focus]
  cases addProcedure procedure file.document <;> rfl

theorem Alike.step (h : Alike file file') (procedure : Procedure) :
    Alike (Step.state (TestTarget.procedure procedure file))
      (Step.state (TestTarget.procedure procedure file')) := by
  have hsize := size_addProcedure file.document procedure
  have hsize' := size_addProcedure file'.document procedure
  have hle := h.size_le
  rw [state_procedure, state_procedure]
  refine ⟨h.module_eq, by simp only; omega, fun hroom => ?_⟩
  simp only at hroom
  obtain ⟨passages, hshows, hshows'⟩ := h.shows (by omega)
  exact ⟨_, shows_addProcedure hshows procedure (by omega),
    shows_addProcedure hshows' procedure hroom⟩

/-- A procedure that is refused has no passage. -/
theorem passage_of_rejected {procedure : Procedure} {fault : Fault}
    (h : TestTarget.procedure procedure file = .error fault file') :
    passage procedure = .error fault := by
  change Step.focus _ _ (addProcedure procedure) file = _ at h
  rcases addProcedure_cases file.document procedure with ⟨_, hpassage, -, hrun⟩ |
    ⟨_, _, hpassage, -, hrun⟩ | ⟨_, -, -, hrun⟩
  · rw [Step.focus_of_error hrun] at h
    cases h
    exact hpassage
  · rw [Step.focus_of_error hrun] at h
    cases h
    exact hpassage
  · rw [Step.focus_of_ok hrun] at h
    cases h

/-- A refused procedure makes no difference. -/
theorem Alike.rejected (h : Alike file file) {procedure : Procedure} {fault : Fault}
    (hrun : TestTarget.procedure procedure file = .error fault file') : Alike file file' := by
  have hpassage := passage_of_rejected hrun
  have hsize := size_addProcedure file.document procedure
  have hfile' : file' = Step.state (TestTarget.procedure procedure file) := by rw [hrun]; rfl
  rw [hfile', state_procedure]
  refine ⟨rfl, by simp only; omega, fun hroom => ?_⟩
  simp only at hroom
  obtain ⟨passages, hshows, -⟩ := h.shows (by omega)
  have hshows' := shows_addProcedure hshows procedure hroom
  rw [hpassage] at hshows'
  exact ⟨passages, hshows, by simpa [Except.toOption] using hshows'⟩

theorem Alike.render_eq (h : Alike file file')
    (hroom : file'.document.blocks.size ≤ Handle.count) : file'.render = file.render := by
  obtain ⟨passages, hshows, hshows'⟩ := h.shows hroom
  have hheading : ∀ text : String, Sink.line 0 text (Buffer.ofIndent .tab) =
      { indent := .tab, text := "" ++ Line.display ⟨0, text⟩ } :=
    fun text => Line.text_line "" ⟨0, text⟩
  rw [File.render, File.render, h.module_eq, hheading, hshows.renderAfter_eq prints_join,
    hshows'.renderAfter_eq prints_join]

theorem Alike.session (h : Alike file file') (procedures : List Procedure) :
    Alike (Procedure.session procedures file) (Procedure.session procedures file') := by
  apply Step.attempt_related _ procedures h
  intro procedure file file' halike
  exact halike.step procedure

/-- However a session goes on after a refused procedure, the file is rendered as it would have been
without it. -/
theorem render_of_rejected (module : String) (before after : List Procedure)
    {procedure : Procedure} {fault : Fault} {file' : File}
    (h : TestTarget.procedure procedure (Procedure.session before ({ module } : File)) =
      .error fault file')
    (hroom : (Procedure.session after file').document.blocks.size ≤ Handle.count) :
    (Procedure.session after file').render =
      (Procedure.session after (Procedure.session before ({ module } : File))).render := by
  have hbefore := (Alike.fresh module).session before
  exact ((hbefore.rejected h).session after).render_eq hroom

end Polyglot.Jest
