import Polyglot.Proofs.Go.Heading
import Polyglot.Proofs.Session
import Polyglot.Proofs.TestFile.Pages
import Polyglot.Proofs.TestFile.Passages
import Polyglot.TestFile.Testify

/-! # Passages of Testify files

The test of a procedure is a passage that depends on the procedure alone, and so do the packages
that are noted while it is spelled. A procedure that is refused leaves these packages behind, and
perhaps a block to which no passage refers.
-/

namespace Polyglot.Testify

open Document

/-! ### Spelling -/

/-- The checks of the side effects. -/
def effectTexts : List SideEffect → Step Imports (List String)
  | [] => return []
  | effect :: rest => do
    let expected ← Go.valueText none effect.expected
    return expectation expected ("model." ++ effect.field) :: (← effectTexts rest)

def callText (procedure : Procedure) (inputs : List String) : String :=
  "model." ++ procedure.method ++ "(" ++ Text.commaSeparated inputs ++ ")"

/-- What the test does, given the spelling of the inputs. -/
def bodyTexts (procedure : Procedure) (inputs : List String) : Step Imports (List String) :=
  match procedure.output with
  | some output => do
    let expected ← Go.valueText none output
    let effects ← effectTexts procedure.sideEffects
    return ("model := " ++ testModel ++ "\x7b\x7d") ::
      ("output := " ++ callText procedure inputs) :: expectation expected "output" :: effects
  | none => do
    let effects ← effectTexts procedure.sideEffects
    return ("model := " ++ testModel ++ "\x7b\x7d") :: callText procedure inputs :: effects

/-- The test of a procedure, given what it does. -/
def frame (procedure : Procedure) (texts : List String) : Passage where
  header := "func " ++ functionName procedure.name ++ "(t *testing.T) \x7b"
  texts := texts
  footer := "\x7d"

theorem additive_effectTexts (effects : List SideEffect) : Additive (effectTexts effects) := by
  induction effects with
  | nil => exact .pure _
  | cons effect rest ih =>
    exact (Go.additive_valueText none effect.expected).bind fun _ => ih.bind fun _ => .pure _

theorem additive_bodyTexts (procedure : Procedure) (inputs : List String) :
    Additive (bodyTexts procedure inputs) := by
  have heffects := additive_effectTexts procedure.sideEffects
  rw [bodyTexts]
  cases procedure.output with
  | none => exact heffects.bind fun _ => .pure _
  | some output =>
    exact (Go.additive_valueText none output).bind fun _ => heffects.bind fun _ => .pure _

/-! ### Writing -/

/-- A file, on which spelling notes packages. -/
def page : Page File Imports where
  document := File.document
  notes := File.imports
  put document imports file := { file with document, imports }
  document_put _ _ _ := rfl
  notes_put _ _ _ := rfl
  put_put _ _ _ _ _ := rfl
  put_self _ := rfl

theorem page_onDocument {α : Type} (step : Step Document α) :
    page.onDocument step = File.onDocument step := rfl

theorem page_onNotes {α : Type} (step : Step Imports α) :
    page.onNotes step = File.onImports step := rfl

theorem writes_addEffects (body : Handle) (effects : List SideEffect) :
    page.Writes body (effectTexts effects) (addEffects body effects) := by
  induction effects with
  | nil => exact Page.Writes.pure
  | cons effect rest ih =>
    exact Page.Writes.spell
      (fun expected => ih.line (expectation expected ("model." ++ effect.field)))
      (Go.valueText none effect.expected)

/-- Writes what the test does to its block. -/
def writeBody (procedure : Procedure) (inputs : List String) (body : Handle) : Step File Unit := do
  File.onDocument (addLine body ("model := " ++ testModel ++ "\x7b\x7d"))
  match procedure.output with
  | some output => do
    let expected ← File.onImports (Go.valueText none output)
    File.onDocument (addLine body ("output := " ++ callText procedure inputs))
    File.onDocument (addLine body (expectation expected "output"))
    addEffects body procedure.sideEffects
  | none => do
    File.onDocument (addLine body (callText procedure inputs))
    addEffects body procedure.sideEffects

theorem writes_writeBody (procedure : Procedure) (inputs : List String) (body : Handle) :
    page.Writes body (bodyTexts procedure inputs) (writeBody procedure inputs body) := by
  have heffects := writes_addEffects body procedure.sideEffects
  rw [bodyTexts, writeBody]
  cases procedure.output with
  | none =>
    have hwrites := (heffects.line (callText procedure inputs)).line
      ("model := " ++ testModel ++ "\x7b\x7d")
    simpa only [bind_assoc, pure_bind, page_onDocument] using hwrites
  | some output =>
    have hcheck := Page.Writes.spell (fun expected => (heffects.line
      (expectation expected "output")).line ("output := " ++ callText procedure inputs))
      (Go.valueText none output)
    have hwrites := hcheck.line ("model := " ++ testModel ++ "\x7b\x7d")
    simpa only [bind_assoc, pure_bind, page_onDocument, page_onNotes] using hwrites

/-- Shows the block of a test that is complete. -/
def finish (procedure : Procedure) (body : Handle) : Step File Unit := do
  File.onDocument do
    separate
    place (frame procedure []).header body (frame procedure []).footer
  modify fun file => { file with functions := functionName procedure.name :: file.functions }

theorem addProcedure_eq (procedure : Procedure) : addProcedure procedure = (do
    if (← get).functions.contains (functionName procedure.name) then
      throw (.invalidSuite (.repeatedFunction (functionName procedure.name)))
    let inputs ← File.onImports (Go.valueTexts none procedure.inputs)
    let body ← File.onDocument (newBlock none)
    writeBody procedure inputs body
    finish procedure body) := by
  rw [addProcedure]
  simp only [writeBody, callText, finish]
  cases procedure.output <;> simp only [bind_assoc] <;> rfl

/-! ### Outcomes -/

variable {procedure : Procedure} {file : File}

theorem addProcedure_of_repeated
    (h : file.functions.contains (functionName procedure.name) = true) :
    ∃ fault, addProcedure procedure file = .error fault file := by
  rw [addProcedure_eq, Step.bind_of_ok (Step.get_apply file), if_pos h]
  exact ⟨_, rfl⟩

section
variable (hnew : ¬ file.functions.contains (functionName procedure.name) = true)
include hnew

theorem addProcedure_of_new : addProcedure procedure file = (do
    let inputs ← File.onImports (Go.valueTexts none procedure.inputs)
    let body ← File.onDocument (newBlock none)
    writeBody procedure inputs body
    finish procedure body : Step File Unit) file := by
  rw [addProcedure_eq, Step.bind_of_ok (Step.get_apply file), if_neg hnew]

/-- Inputs that cannot be spelled. -/
theorem addProcedure_of_inputs {fault : Fault} {noted : Imports}
    (hinputs : Go.valueTexts none procedure.inputs {} = .error fault noted) :
    addProcedure procedure file =
      .error fault { file with imports := file.imports.union noted } := by
  have hspell := Go.additive_valueTexts none procedure.inputs file.imports
  rw [hinputs] at hspell
  rw [addProcedure_of_new hnew]
  exact Step.bind_of_error (Step.focus_of_error hspell)

section
variable {inputs : List String} {noted : Imports}
  (hinputs : Go.valueTexts none procedure.inputs {} = .ok inputs noted)
include hinputs

theorem addProcedure_of_spelled : addProcedure procedure file = (do
    let body ← File.onDocument (newBlock none)
    writeBody procedure inputs body
    finish procedure body : Step File Unit)
      { file with imports := file.imports.union noted } := by
  have hspell := Go.additive_valueTexts none procedure.inputs file.imports
  rw [hinputs] at hspell
  rw [addProcedure_of_new hnew]
  exact Step.bind_of_ok (Step.focus_of_ok hspell)

/-- Something after the inputs that cannot be spelled: the block of the test is not shown. -/
theorem addProcedure_of_body {fault : Fault} {noted' : Imports}
    (hbody : bodyTexts procedure inputs {} = .error fault noted') :
    ∃ texts, addProcedure procedure file =
      .error fault (page.drafted texts (file.imports.union (noted.union noted')) file) := by
  have hspell := additive_bodyTexts procedure inputs (file.imports.union noted)
  rw [hbody, Imports.prior, Imports.union_assoc] at hspell
  obtain ⟨texts, hstop⟩ := Page.newBlock_of_error (writes_writeBody procedure inputs)
    (finish procedure) (s := { file with imports := file.imports.union noted }) hspell
  exact ⟨texts, (addProcedure_of_spelled hnew hinputs).trans hstop⟩

/-- A test that is complete. -/
theorem addProcedure_of_ok {texts : List String} {noted' : Imports}
    (hbody : bodyTexts procedure inputs {} = .ok texts noted') {root : Block}
    (hroot : (page.drafted texts {} file).document.blocks[Handle.root.index]? = some root) :
    addProcedure procedure file = .ok ()
      { file with
        document := (page.drafted texts {} file).document.append .root
          (separator root.entries.toList ++
            (frame procedure texts).entries (.next file.document.blocks.size))
        imports := file.imports.union (noted.union noted')
        functions := functionName procedure.name :: file.functions } := by
  have hspell := additive_bodyTexts procedure inputs (file.imports.union noted)
  rw [hbody, Imports.prior, Imports.union_assoc] at hspell
  have hwrite := Page.newBlock_of_ok (writes_writeBody procedure inputs) (finish procedure)
    (s := { file with imports := file.imports.union noted }) hspell
  have hnext := Handle.index_next_le file.document.blocks.size
  have hlt : (Handle.next file.document.blocks.size).index <
      (page.drafted texts {} file).document.blocks.size := by
    simp [Page.drafted, page]
    omega
  have hshow : (do
      separate
      place (frame procedure []).header (.next file.document.blocks.size)
        (frame procedure []).footer : Step Document Unit) (page.drafted texts {} file).document =
      .ok () ((page.drafted texts {} file).document.append .root
        (separator root.entries.toList ++
          (frame procedure texts).entries (.next file.document.blocks.size))) := by
    rw [Step.bind_of_ok (separate_of_find hroot), place_of_lt (by simpa using hlt), append_append]
    rfl
  have hfinish : File.onDocument (do
      separate
      place (frame procedure []).header (.next file.document.blocks.size)
        (frame procedure []).footer) (page.drafted texts (file.imports.union (noted.union noted'))
          { file with imports := file.imports.union noted }) = .ok () _ :=
    Step.focus_of_ok hshow
  refine (addProcedure_of_spelled hnew hinputs).trans (hwrite.trans ?_)
  exact Step.bind_of_ok hfinish

end

end

/-! ### Effects -/

/-- Passages are separated by a blank line. -/
def join (items : List (List Entry)) : List Entry :=
  [.line ""].intercalate items

/-- What a procedure does to any file. -/
structure Effect where
  noted : Imports := {}
  /-- The number of blocks added. -/
  width : Nat := 0
  passages : List Passage := []
  functions : List String := []

/-- The effect of a procedure, given whether there is a function of its name already. -/
def effect (procedure : Procedure) (repeated : Bool) : Effect :=
  if repeated then {} else
    match Go.valueTexts none procedure.inputs {} with
    | .error _ noted => { noted }
    | .ok inputs noted =>
      match bodyTexts procedure inputs {} with
      | .error _ noted' => { noted := noted.union noted', width := 1 }
      | .ok texts noted' =>
        { noted := noted.union noted', width := 1, passages := [frame procedure texts]
          functions := [functionName procedure.name] }

/-- A file changes by an effect; its passages are as the effect says while there are handles for all
blocks. -/
def Effect.Changes (effect : Effect) (file file' : File) : Prop :=
  ∃ document, file' = { file with
      document, imports := file.imports.union effect.noted,
      functions := effect.functions ++ file.functions } ∧
    document.blocks.size = file.document.blocks.size + effect.width ∧
    ∀ passages, file.document.Shows join passages → document.blocks.size ≤ Handle.count →
      document.Shows join (passages ++ effect.passages)

theorem join_eq_nil {passages : List Passage} {bodies : List Handle}
    (h : passages.length = bodies.length) :
    join (List.zipWith Passage.entries passages bodies) = [] ↔ passages = [] := by
  cases passages with
  | nil => simp [join, List.intercalate]
  | cons passage passages =>
    cases bodies with
    | nil => simp at h
    | cons body bodies =>
      rw [join, List.zipWith_cons_cons]
      cases List.zipWith Passage.entries passages bodies <;>
        simp [List.intercalate, Passage.entries]

/-- A complete passage is shown after a blank line, unless it is the first one. -/
theorem shows_add {document : Document} {passages : List Passage}
    (h : document.Shows join passages) (hlt : document.blocks.size < Handle.count)
    (passage : Passage) {root : Block}
    (hroot : document.blocks[Handle.root.index]? = some root) :
    ((document.append .root (separator root.entries.toList ++
      passage.entries (.next document.blocks.size))).extend [passage.block]).Shows join
        (passages ++ [passage]) := by
  have hlead : separator root.entries.toList =
      if passages = [] then [] else [.line ""] := by
    obtain ⟨bodies, hhouses, hfind⟩ := h
    rw [hfind] at hroot
    cases hroot
    simp [separator, join_eq_nil hhouses.length_eq]
  rw [hlead]
  apply h.add hlt passage
  intro bodies hlength
  by_cases hnil : passages = []
  · subst hnil
    simp [join, List.intercalate]
  · have hitems : List.zipWith Passage.entries passages bodies ≠ [] := by
      intro hzip
      apply hnil
      rw [← join_eq_nil hlength, hzip]
      rfl
    rw [if_neg hnil, join, Style.intercalate_concat _ hitems, List.append_assoc]
    rfl

theorem size_drafted (texts : List String) (imports : Imports) (file : File) :
    (page.drafted texts imports file).document.blocks.size = file.document.blocks.size + 1 := by
  simp [Page.drafted, page]

/-- A procedure changes a file by its effect. If it is refused, that is no passage. -/
theorem changes_addProcedure (procedure : Procedure) (file : File) :
    (effect procedure (file.functions.contains (functionName procedure.name))).Changes file
        (Step.state (addProcedure procedure file)) ∧
      ∀ fault file', addProcedure procedure file = .error fault file' →
        (effect procedure (file.functions.contains (functionName procedure.name))).passages = [] ∧
        (effect procedure (file.functions.contains (functionName procedure.name))).functions =
          [] := by
  by_cases hnew : file.functions.contains (functionName procedure.name) = true
  · obtain ⟨fault, hstop⟩ := addProcedure_of_repeated hnew
    have heffect : effect procedure (file.functions.contains (functionName procedure.name)) =
        {} := by
      rw [effect, if_pos hnew]
    rw [heffect, hstop]
    refine ⟨⟨file.document, ?_, rfl, ?_⟩, fun _ _ _ => ⟨rfl, rfl⟩⟩
    · simp [Step.state]
    · intro passages hshows _
      simpa using hshows
  · cases hinputs : Go.valueTexts none procedure.inputs {} with
    | error fault noted =>
      have heffect : effect procedure (file.functions.contains (functionName procedure.name)) =
          { noted } := by
        rw [effect, if_neg hnew, hinputs]
      rw [heffect, addProcedure_of_inputs hnew hinputs]
      refine ⟨⟨file.document, rfl, rfl, ?_⟩, fun _ _ _ => ⟨rfl, rfl⟩⟩
      intro passages hshows _
      simpa using hshows
    | ok inputs noted =>
      cases hbody : bodyTexts procedure inputs {} with
      | error fault noted' =>
        have heffect : effect procedure (file.functions.contains (functionName procedure.name)) =
            { noted := noted.union noted', width := 1 } := by
          simp only [effect, if_neg hnew, hinputs, hbody]
        obtain ⟨texts, hstop⟩ := addProcedure_of_body hnew hinputs hbody
        rw [heffect, hstop]
        refine ⟨⟨(page.drafted texts {} file).document, rfl, ?_, ?_⟩, fun _ _ _ => ⟨rfl, rfl⟩⟩
        · simp [Page.drafted, page]
        · intro passages hshows hroom
          rw [size_drafted] at hroom
          rw [page.drafted_of_lt hroom, List.append_nil]
          exact hshows.extend _
      | ok texts noted' =>
        have heffect : effect procedure (file.functions.contains (functionName procedure.name)) =
            { noted := noted.union noted', width := 1, passages := [frame procedure texts]
              functions := [functionName procedure.name] } := by
          simp only [effect, if_neg hnew, hinputs, hbody]
        have hpos : Handle.root.index < (page.drafted texts {} file).document.blocks.size := by
          rw [size_drafted]
          exact Nat.succ_pos _
        obtain ⟨root, hroot⟩ : ∃ root,
            (page.drafted texts {} file).document.blocks[Handle.root.index]? = some root :=
          ⟨_, Array.getElem?_eq_getElem hpos⟩
        have hrun := addProcedure_of_ok hnew hinputs hbody hroot
        rw [heffect, hrun]
        refine ⟨⟨_, rfl, ?_, ?_⟩, fun _ _ hstop => by cases hstop⟩
        · rw [size_append, size_drafted]
        · intro passages hshows hroom
          rw [size_append, size_drafted] at hroom
          obtain ⟨old, hold⟩ : ∃ old, file.document.blocks[Handle.root.index]? = some old := by
            obtain ⟨_, _, hfind⟩ := hshows
            exact ⟨_, hfind⟩
          have hlt := (Array.getElem?_eq_some_iff.mp hold).1
          have hdrafted : (page.drafted texts {} file).document =
              file.document.extend [(frame procedure texts).block] := by
            rw [page.drafted_of_lt hroom]
            rfl
          rw [hdrafted, find_extend hold] at hroot
          cases hroot
          rw [hdrafted, append_extend hlt]
          exact shows_add hshows hroom (frame procedure texts) hold

/-! ### Sessions -/

/-- Two files that differ in packages noted by the second one only, while there are handles for all
of its blocks. -/
structure Alike (noted : Imports) (file file' : File) : Prop where
  package_eq : file'.package = file.package
  functions_eq : file'.functions = file.functions
  imports_eq : file'.imports = file.imports.union noted
  size_le : file.document.blocks.size ≤ file'.document.blocks.size
  shows : file'.document.blocks.size ≤ Handle.count → ∃ passages,
    file.document.Shows join passages ∧ file'.document.Shows join passages

variable {noted : Imports} {file' : File}

theorem Alike.fresh (package : String) : Alike {} { package } { package } where
  package_eq := rfl
  functions_eq := rfl
  imports_eq := (Imports.union_empty _).symm
  size_le := Nat.le_refl _
  shows _ := ⟨[], ⟨[], .nil, rfl⟩, ⟨[], .nil, rfl⟩⟩

theorem Alike.step (h : Alike noted file file') (procedure : Procedure) :
    Alike noted (Step.state (TestTarget.procedure procedure file))
      (Step.state (TestTarget.procedure procedure file')) := by
  obtain ⟨⟨document, heq, hsize, hshows⟩, -⟩ := changes_addProcedure procedure file
  obtain ⟨⟨document', heq', hsize', hshows'⟩, -⟩ := changes_addProcedure procedure file'
  have hle := h.size_le
  rw [h.functions_eq] at heq' hsize' hshows'
  change Alike noted (Step.state (addProcedure procedure file))
    (Step.state (addProcedure procedure file'))
  rw [heq, heq']
  refine ⟨h.package_eq, rfl, ?_, by simp only; omega, fun hroom => ?_⟩
  · simp only [h.imports_eq]
    ext package
    simp [Bool.or_right_comm]
  · simp only at hroom
    obtain ⟨passages, hold, hold'⟩ := h.shows (by omega)
    exact ⟨_, hshows passages hold (by omega), hshows' passages hold' hroom⟩

/-- A refused procedure makes no difference but to the packages. -/
theorem Alike.rejected (h : Alike {} file file) {procedure : Procedure} {fault : Fault}
    (hrun : TestTarget.procedure procedure file = .error fault file') :
    ∃ noted, Alike noted file file' := by
  obtain ⟨⟨document, heq, hsize, hshows⟩, hrefused⟩ := changes_addProcedure procedure file
  obtain ⟨hpassages, hfunctions⟩ := hrefused fault file' hrun
  change addProcedure procedure file = _ at hrun
  rw [hrun] at heq
  change file' = _ at heq
  rw [heq]
  refine ⟨_, rfl, ?_, rfl, ?_, fun hroom => ?_⟩
  · rw [hfunctions, List.nil_append]
  · simp only
    omega
  · simp only at hroom
    obtain ⟨passages, hold, -⟩ := h.shows (by omega)
    have hnew := hshows passages hold hroom
    rw [hpassages, List.append_nil] at hnew
    exact ⟨passages, hold, hnew⟩

/-- What follows the heading depends on the passages alone. -/
theorem remainder_of_shows {document : Document} {passages : List Passage}
    (h : document.Shows join passages) :
    Go.remainder document = .ok (Line.displayAll
      (passages.flatMap fun passage => .blank :: passage.lines)) := by
  have hafter := h.renderAfter_eq Prints.intercalate
  obtain ⟨bodies, hhouses, hroot⟩ := h
  have hnil := join_eq_nil hhouses.length_eq
  rw [Go.remainder, isEmptyAt_of_find hroot]
  by_cases hpassages : passages = []
  · have hempty : (join (List.zipWith Passage.entries passages bodies)).toArray.isEmpty = true := by
      simpa using hnil.mpr hpassages
    rw [hempty]
    refine Eq.trans (hafter "") ?_
    simp [hpassages, List.intercalate, Line.displayAll]
  · have hempty :
        (join (List.zipWith Passage.entries passages bodies)).toArray.isEmpty = false := by
      simpa using fun hjoin => hpassages (hnil.mp hjoin)
    have hlines : passages.map Passage.lines ≠ [] := by simpa using hpassages
    rw [hempty]
    change document.renderAfter (Sink.line Line.blank.level Line.blank.text
      ({ indent := .tab, text := "" } : Buffer)) = _
    rw [Line.text_line, hafter, String.empty_append, ← Line.displayAll,
      Go.cons_intercalate _ hlines, List.flatMap_map]

/-- Files that differ in packages have the same text exactly if these were noted anyway. -/
theorem Alike.render_eq_iff (h : Alike noted file file')
    (hroom : file'.document.blocks.size ≤ Handle.count) :
    file'.render = file.render ↔ file.imports.union noted = file.imports := by
  obtain ⟨passages, hshows, hshows'⟩ := h.shows hroom
  have hrest := remainder_of_shows hshows
  have hsame : Go.remainder file'.document = Go.remainder file.document :=
    (remainder_of_shows hshows').trans hrest.symm
  have htext : ¬ ∃ fault, Go.renderFile file.package file.imports file.document = .error fault := by
    rintro ⟨fault, hfault⟩
    rw [Go.renderFile_eq_map, hrest] at hfault
    cases hfault
  rw [File.render, File.render, h.package_eq, h.imports_eq,
    Go.renderFile_union_eq_iff hsame, or_iff_right htext]

/-- To note the packages of a file again makes no difference. -/
theorem Alike.again (h : Alike {} file file) : Alike file.imports file file where
  package_eq := rfl
  functions_eq := rfl
  imports_eq := (Imports.union_self _).symm
  size_le := h.size_le
  shows := h.shows

theorem Alike.session (h : Alike noted file file') (procedures : List Procedure) :
    Alike noted (Procedure.session procedures file) (Procedure.session procedures file') := by
  apply Step.attempt_related _ procedures h
  intro procedure file file' halike
  exact halike.step procedure

/-- However a session goes on after a refused procedure, the file is rendered as it would have been
without it exactly if every package noted by then is noted anyway. -/
theorem render_eq_iff_of_rejected (package : String) (before after : List Procedure)
    {procedure : Procedure} {fault : Fault} {file file' : File}
    (hfile : file = Procedure.session before { package })
    (h : TestTarget.procedure procedure file = .error fault file')
    (hroom : (Procedure.session after file').document.blocks.size ≤ Handle.count) :
    (Procedure.session after file').render = (Procedure.session after file).render ↔
      ∀ noted, file'.imports.contains noted = true →
        (Procedure.session after file).imports.contains noted = true := by
  have hbefore := (Alike.fresh package).session before
  rw [← hfile] at hbefore
  obtain ⟨noted, hrejected⟩ := hbefore.rejected h
  -- What was noted before is noted for good.
  have hkept := hbefore.again.session after
  rw [(hrejected.session after).render_eq_iff hroom,
    Imports.union_eq_left_iff_union hkept.imports_eq.symm, ← hrejected.imports_eq]

end Polyglot.Testify
