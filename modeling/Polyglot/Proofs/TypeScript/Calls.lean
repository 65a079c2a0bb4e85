import Polyglot.Proofs.Document.Settling
import Polyglot.Proofs.Document.Success
import Polyglot.Proofs.Session
import Polyglot.Proofs.TypeScript.Drawing

/-! # Calls of TypeScript files

A call first spells its text and looks for its block, and then cannot stop any more. So a call
either leaves the file as it was or succeeds, however many blocks there are.
-/

namespace Polyglot.TypeScript

open Document

variable {file : File} {α : Type}

theorem onDocument_of_succeeds {least : Nat} {step : Step Document α}
    (hstep : Succeeds least step) (hleast : least ≤ file.document.blocks.size) :
    ∃ a document', File.onDocument step file = .ok a { file with document := document' } ∧
      file.document.blocks.size ≤ document'.blocks.size := by
  obtain ⟨a, document', hrun, hsize⟩ := hstep hleast
  exact ⟨a, document', onDocument_of_ok hrun, hsize⟩

/-! ### Declarations -/

section
variable (hpos : 0 < file.document.blocks.size)
include hpos

theorem model_of_spelled (name : String) {fields : List Field} {texts : List String}
    (h : paramTexts fields = .ok texts) :
    ∃ file', Target.model name fields file = .ok () file' ∧
      file.document.blocks.size ≤ file'.document.blocks.size := by
  have hsteps : Succeeds 1 (do
      let body ← newBlock none
      addLines body (texts.map (· ++ ";"))
      separate
      place ("export class " ++ name ++ " \x7b") body "\x7d"
      return body) := by
    refine Succeeds.newBlock_bind none fun size _ => ?_
    have hnew := Nat.lt_succ_of_le (Handle.index_next_le size)
    refine (succeeds_addLines hnew _).bind fun _ => ?_
    refine (succeeds_separate (Nat.succ_pos size)).bind fun _ => ?_
    exact (succeeds_place hnew _ _).bind fun _ => Succeeds.pure _
  obtain ⟨body, document', hrun, hsize⟩ := onDocument_of_succeeds hsteps hpos
  exact ⟨_, Step.lift_bind_eq_ok_iff.mpr ⟨texts, h, (Step.bind_of_ok hrun).trans rfl⟩, hsize⟩

theorem enumeration_of_pos (name : String) (values : List String) :
    ∃ file', Target.enumeration name values file = .ok () file' ∧
      file.document.blocks.size ≤ file'.document.blocks.size := by
  have hsteps : Succeeds 1 (do
      let body ← newBlock none
      addLines body (enumLines values)
      separate
      place ("export enum " ++ name ++ " \x7b") body "\x7d") := by
    refine Succeeds.newBlock_bind none fun size _ => ?_
    have hnew := Nat.lt_succ_of_le (Handle.index_next_le size)
    refine (succeeds_addLines hnew _).bind fun _ => ?_
    exact (succeeds_separate (Nat.succ_pos size)).bind fun _ => succeeds_place hnew _ _
  obtain ⟨_, document', hrun, hsize⟩ := onDocument_of_succeeds hsteps hpos
  exact ⟨_, hrun, hsize⟩

theorem method_of_spelled (owner name : String) {params : List Field} {returns : Option Ty}
    {header : String} (h : methodHeader name params returns = .ok header) :
    ∃ body file', Target.method owner name params returns file = .ok body file' ∧
      file.document.blocks.size ≤ file'.document.blocks.size := by
  have hsteps : Succeeds 1 (do
      let member ← newBlock (some owner)
      let body ← newBlockIn member
      addLine member header
      addBlock member body
      addLine member "\x7d"
      return (member, body)) := by
    refine Succeeds.newBlock_bind (some owner) fun size _ => ?_
    have hmember := Nat.lt_succ_of_le (Handle.index_next_le size)
    refine Succeeds.newBlockIn_bind hmember fun size' hle => ?_
    have hmember' := Nat.lt_of_lt_of_le hmember (Nat.le_succ_of_le hle)
    have hbody := Nat.lt_succ_of_le (Handle.index_next_le size')
    refine (succeeds_addLine hmember' header).bind fun _ => ?_
    refine (succeeds_addBlock hmember' hbody).bind fun _ => ?_
    exact (succeeds_addLine hmember' "\x7d").bind fun _ => Succeeds.pure _
  obtain ⟨⟨member, body⟩, document', hrun, hsize⟩ := onDocument_of_succeeds hsteps hpos
  exact ⟨body, _, Step.lift_bind_eq_ok_iff.mpr ⟨header, h, (Step.bind_of_ok hrun).trans rfl⟩, hsize⟩

end

/-! ### Statements -/

/-- The block belongs to the methods of a model. -/
def InMethod (document : Document) (block : Handle) : Prop :=
  ∃ content model, document.blocks[block.index]? = some content ∧ content.owner = some model

/-- To look for the method of a block changes nothing. -/
theorem checkInMethod_cases (document : Document) (block : Handle) :
    InMethod document block ∨ ∃ fault, checkInMethod block document = .error fault document := by
  cases hfind : document.blocks[block.index]? with
  | none =>
    right
    refine ⟨.invalidBlock block, ?_⟩
    simp [checkInMethod, ownerOf, blockAt, hfind, bind, EStateM.bind, Except.bind]
    rfl
  | some content =>
    cases howner : content.owner with
    | none =>
      right
      refine ⟨.unsupported target (.looseStatement block), ?_⟩
      rw [checkInMethod, Step.bind_of_ok (Step.get_apply document), ownerOf_of_find hfind, howner]
      rfl
    | some model => exact .inl ⟨content, model, hfind, howner⟩

/-- A step that begins by looking for the method of its block. -/
theorem onDocument_checked {block : Handle} {step : Step Document α}
    (hstep : Succeeds (block.index + 1) step) (hmethod : InMethod file.document block) :
    ∃ a document', File.onDocument (do checkInMethod block; step) file =
        .ok a { file with document := document' } ∧
      file.document.blocks.size ≤ document'.blocks.size := by
  obtain ⟨content, model, hfind, howner⟩ := hmethod
  have hcheck := checkInMethod_of_find hfind howner
  obtain ⟨a, document', hrun, hsize⟩ := hstep (Array.getElem?_eq_some_iff.mp hfind).1
  exact ⟨a, document', onDocument_of_ok ((Step.bind_of_ok hcheck).trans hrun), hsize⟩

theorem onDocument_unchecked {block : Handle} {step : Step Document α} {fault : Fault}
    (h : checkInMethod block file.document = .error fault file.document) :
    File.onDocument (do checkInMethod block; step) file = .error fault file :=
  Step.focus_of_error (Step.bind_of_error h)

section
variable {block : Handle} (hmethod : InMethod file.document block)
include hmethod

theorem act_of_spelled {action : Action} {text : String} (h : actionText action = .ok text) :
    ∃ file', Target.act block action file = .ok () file' ∧
      file.document.blocks.size ≤ file'.document.blocks.size := by
  obtain ⟨_, document', hrun, hsize⟩ :=
    onDocument_checked (succeeds_addLine (Nat.lt_succ_self _) text) hmethod
  exact ⟨_, Step.lift_bind_eq_ok_iff.mpr ⟨text, h, hrun⟩, hsize⟩

theorem enter_of_spelled {scope : Scope} {header : String} (h : scopeHeader scope = .ok header) :
    ∃ inner file', Target.enter block scope file = .ok inner file' ∧
      file.document.blocks.size ≤ file'.document.blocks.size := by
  obtain ⟨inner, document', hrun, hsize⟩ :=
    onDocument_checked (succeeds_openScope (Nat.lt_succ_self _) header "\x7d") hmethod
  exact ⟨inner, _, Step.lift_bind_eq_ok_iff.mpr ⟨header, h, hrun⟩, hsize⟩

theorem branch_of_spelled {condition : Value} {header : String}
    (h : conditionHeader condition = .ok header) :
    ∃ inner file', Target.branch block condition file = .ok inner file' ∧
      file.document.blocks.size ≤ file'.document.blocks.size := by
  obtain ⟨inner, document', hrun, hsize⟩ := onDocument_checked
    (succeeds_openScopes (Nat.lt_succ_self _) header "\x7d else \x7b" "\x7d") hmethod
  exact ⟨inner, _, Step.lift_bind_eq_ok_iff.mpr ⟨header, h, hrun⟩, hsize⟩

end

/-! ### Outcomes -/

/-- A step that stopped left the file as it was; one that succeeded took no block away. -/
abbrev Clean (file : File) (outcome : EStateM.Result Fault File α) : Prop :=
  Step.Ends Eq (fun file file' => file.document.blocks.size ≤ file'.document.blocks.size) file
    outcome

theorem clean_of_ok {outcome : EStateM.Result Fault File α} {a : α} {file' : File}
    (h : outcome = .ok a file') (hsize : file.document.blocks.size ≤ file'.document.blocks.size) :
    Clean file outcome := by
  rw [h]
  exact hsize

theorem clean_checked {block : Handle} {step : Step Document α}
    (hstep : Succeeds (block.index + 1) step) :
    Clean file (File.onDocument (do checkInMethod block; step) file) := by
  rcases checkInMethod_cases file.document block with hmethod | ⟨fault, hcheck⟩
  · obtain ⟨a, document', hrun, hsize⟩ := onDocument_checked hstep hmethod
    exact clean_of_ok hrun hsize
  · rw [onDocument_unchecked hcheck]
    rfl

/-- A call leaves no trace unless it succeeds. -/
theorem clean_run (hpos : 0 < file.document.blocks.size) (call : Call) :
    Clean file (call.run file) := by
  cases call with
  | model name fields =>
    apply Step.Ends.bind_pure
    apply Step.Ends.lift rfl
    intro texts htexts
    obtain ⟨file', hmodel, hsize⟩ := model_of_spelled hpos name htexts
    exact clean_of_ok ((Step.lift_bind_of_ok htexts).symm.trans hmodel) hsize
  | enumeration name values =>
    apply Step.Ends.bind_pure
    obtain ⟨file', hrun, hsize⟩ := enumeration_of_pos hpos name values
    exact clean_of_ok hrun hsize
  | method owner name params returns =>
    apply Step.Ends.bind_pure
    apply Step.Ends.lift rfl
    intro header hheader
    obtain ⟨body, file', hmethod, hsize⟩ := method_of_spelled hpos owner name hheader
    exact clean_of_ok ((Step.lift_bind_of_ok hheader).symm.trans hmethod) hsize
  | act block action =>
    apply Step.Ends.bind_pure
    apply Step.Ends.lift rfl
    intro text _
    exact clean_checked (succeeds_addLine (Nat.lt_succ_self _) text)
  | enter block scope =>
    apply Step.Ends.bind_pure
    apply Step.Ends.lift rfl
    intro header _
    exact clean_checked (succeeds_openScope (Nat.lt_succ_self _) header "\x7d")
  | branch block condition =>
    apply Step.Ends.bind_pure
    apply Step.Ends.lift rfl
    intro header _
    exact clean_checked (succeeds_openScopes (Nat.lt_succ_self _) header "\x7d else \x7b" "\x7d")

/-! ### Sessions -/

theorem size_le_of_run (hpos : 0 < file.document.blocks.size) (call : Call) :
    file.document.blocks.size ≤ (Step.state (call.run file)).document.blocks.size := by
  rcases (clean_run hpos call).state with hkept | hsize
  · exact Nat.le_of_eq (congrArg (fun file : File => file.document.blocks.size) hkept)
  · exact hsize

theorem preserves_settle (size : Nat) :
    Step.Preserves (fun file : File => file.document.blocks.size = size) File.settle := by
  refine Step.Preserves.focus (Q := fun state : Document × Members => state.1.blocks.size = size)
    (fun _ h => h) (fun _ _ _ h => h) ?_
  refine Step.Preserves.bind Step.Preserves.get fun state => ?_
  refine Step.Preserves.bind (Step.Preserves.ofExcept _) fun targets => ?_
  refine Step.Preserves.bind (Step.Preserves.modify fun _ h => h) fun _ => ?_
  exact Step.Preserves.focus (fun _ h => h) (fun _ _ _ h => h) (preserves_moveAll size _)

theorem preserves_render (size : Nat) :
    Step.Preserves (fun file : File => file.document.blocks.size = size) File.render := by
  refine Step.Preserves.bind (preserves_settle size) fun _ => ?_
  exact Step.Preserves.bind Step.Preserves.get fun file => Step.Preserves.ofExcept _

/-- The root is there throughout a session. -/
theorem pos_of_session (requests : List Request) :
    0 < (Request.session File.render requests {}).document.blocks.size := by
  have hserve : ∀ request, Step.Preserves (fun file : File => 0 < file.document.blocks.size)
      (Request.serve File.render request) := by
    intro request file hpos
    cases request with
    | call call =>
      rw [Request.serve, Step.state_bind_pure]
      exact Nat.lt_of_lt_of_le hpos (size_le_of_run hpos call)
    | render =>
      rw [Request.serve, Step.state_bind_pure]
      exact Nat.lt_of_lt_of_eq hpos (preserves_render _ rfl).symm
  exact Step.attempt_invariant hserve requests (by decide)

end Polyglot.TypeScript
