import Polyglot.Proofs.Document.Success
import Polyglot.Proofs.Go.Drawing
import Polyglot.Proofs.Session

/-! # Calls of Go files

A call of a Go file spells its text before it changes the document, but packages are noted while
the text is spelled. So a call that is refused leaves the file as it was except for the packages,
and since no call looks at them, they stay the only difference however the session goes on.
-/

namespace Polyglot.Go

open Document

variable {file : File} {α : Type}

/-- A file with further packages noted. -/
def File.importing (noted : Imports) (file : File) : File :=
  { file with imports := file.imports.union noted }

@[simp] theorem importing_empty (file : File) : file.importing {} = file := by
  simp [File.importing]

/-! ### Outcomes -/

/-- A step that stopped left the file as it was, except for packages that it noted; one that
succeeded took no block away. -/
abbrev Clean (file : File) (outcome : EStateM.Result Fault File α) : Prop :=
  Step.Ends (fun file file' => ∃ noted, file' = file.importing noted)
    (fun file file' => file.document.blocks.size ≤ file'.document.blocks.size) file outcome

theorem clean_lift {outcome : Except Fault α} {β : Type} {next : α → Step File β}
    (h : ∀ a, outcome = .ok a → Clean file (next a file)) :
    Clean file (((liftM outcome : Step File α) >>= next) file) :=
  Step.Ends.lift ⟨{}, (importing_empty file).symm⟩ h

theorem onDocument_of_succeeds {least : Nat} {step : Step Document α}
    (hstep : Succeeds least step) (hleast : least ≤ file.document.blocks.size) :
    ∃ a document', File.onDocument step file = .ok a { file with document := document' } ∧
      file.document.blocks.size ≤ document'.blocks.size := by
  obtain ⟨a, document', hrun, hsize⟩ := hstep hleast
  exact ⟨a, document', onDocument_of_ok hrun, hsize⟩

/-- A declaration, once it is spelled. -/
theorem clean_declare {least : Nat} {step : Step Document α} (hstep : Succeeds least step)
    (hleast : least ≤ file.document.blocks.size) {β : Type} {next : α → Step File β}
    (hnext : ∀ a file, ∃ b file', next a file = .ok b file' ∧ file'.document = file.document) :
    Clean file ((File.onDocument step >>= next) file) := by
  obtain ⟨a, document', hrun, hsize⟩ := onDocument_of_succeeds hstep hleast
  obtain ⟨b, file', hdone, hdocument⟩ := hnext a { file with document := document' }
  rw [Step.bind_of_ok hrun, hdone]
  change file.document.blocks.size ≤ file'.document.blocks.size
  rwa [hdocument]

/-- A text that is spelled and then written. -/
theorem clean_spell {spelling : Step Imports String} (hadditive : Additive spelling)
    {step : String → Step Document α} {least : Nat} (hstep : ∀ text, Succeeds least (step text))
    (hleast : least ≤ file.document.blocks.size) :
    Clean file ((File.onImports spelling >>= fun text => File.onDocument (step text)) file) := by
  obtain ⟨noted, hnoted⟩ := hadditive.exists_union file.imports
  cases hspelling : spelling file.imports with
  | error fault imports =>
    have hstop : File.onImports spelling file = .error fault { file with imports } :=
      Step.focus_of_error hspelling
    rw [hspelling] at hnoted
    rw [Step.bind_of_error hstop]
    exact ⟨noted, by rw [File.importing, ← hnoted]; rfl⟩
  | ok text imports =>
    have hspelled : File.onImports spelling file = .ok text { file with imports } :=
      Step.focus_of_ok hspelling
    obtain ⟨a, document', hrun, hsize⟩ := hstep text hleast
    have hwrite : File.onDocument (step text) { file with imports } =
        .ok a { file with document := document', imports } := onDocument_of_ok hrun
    rw [Step.bind_of_ok hspelled, hwrite]
    exact hsize

/-- A block with a receiver is one of the document. -/
theorem lt_of_receiverOf {document : Document} {block : Handle} {receiver : String}
    (h : receiverOf document block = .ok receiver) : block.index < document.blocks.size := by
  by_contra hlt
  have hfind : document.blocks[block.index]? = none := Array.getElem?_eq_none (by omega)
  simp [receiverOf, ownerOf, blockAt, hfind, bind, Except.bind] at h

/-- A call leaves nothing but packages behind unless it succeeds. -/
theorem clean_run (hpos : 0 < file.document.blocks.size) (call : Call) :
    Clean file (call.run file) := by
  cases call with
  | model name fields =>
    apply Step.Ends.bind_pure
    apply clean_lift
    intro texts _
    have hsteps : Succeeds 1 (do
        let body ← newBlock none
        addLines body texts
        separate
        place ("type " ++ name ++ " struct \x7b") body "\x7d") := by
      refine Succeeds.newBlock_bind none fun size _ => ?_
      have hnew := Nat.lt_succ_of_le (Handle.index_next_le size)
      refine (succeeds_addLines hnew _).bind fun _ => ?_
      exact (succeeds_separate (Nat.succ_pos size)).bind fun _ => succeeds_place hnew _ _
    exact clean_declare hsteps hpos fun _ file => ⟨(), _, rfl, rfl⟩
  | enumeration name values =>
    apply Step.Ends.bind_pure
    have hroot : Handle.root.index < 1 := Nat.zero_lt_one
    have hconstants : Succeeds 1 (unless values.isEmpty do
        let body ← newBlock none
        addLines body (enumLines name values)
        addLine .root ""
        place "const (" body ")") := by
      cases values.isEmpty with
      | true => exact Succeeds.pure _
      | false =>
        refine Succeeds.newBlock_bind none fun size _ => ?_
        have hnew := Nat.lt_succ_of_le (Handle.index_next_le size)
        refine (succeeds_addLines hnew _).bind fun _ => ?_
        exact (succeeds_addLine (Nat.succ_pos size) _).bind fun _ => succeeds_place hnew _ _
    obtain ⟨_, document', hrun, hsize⟩ := onDocument_of_succeeds ((succeeds_separate hroot).bind
      fun _ => (succeeds_addLine hroot ("type " ++ name ++ " int")).bind fun _ => hconstants) hpos
    change Clean file (File.onDocument _ file)
    rw [hrun]
    exact hsize
  | method owner name params returns =>
    apply Step.Ends.bind_pure
    apply clean_lift
    intro signature _
    apply clean_lift
    intro _ _
    have hsteps : Succeeds 1 (do
        let body ← newBlock (some owner)
        separate
        place ("func (" ++ receiverName owner ++ " *" ++ owner ++ ") " ++ name ++ signature ++
          " \x7b") body "\x7d"
        return body) := by
      refine Succeeds.newBlock_bind (some owner) fun size _ => ?_
      have hnew := Nat.lt_succ_of_le (Handle.index_next_le size)
      refine (succeeds_separate (Nat.succ_pos size)).bind fun _ => ?_
      exact (succeeds_place hnew _ _).bind fun _ => Succeeds.pure _
    exact clean_declare hsteps hpos fun body file => ⟨body, _, rfl, rfl⟩
  | act block action =>
    apply Step.Ends.bind_pure
    apply Step.Ends.get_bind
    apply clean_lift
    intro receiver hreceiver
    apply clean_lift
    intro _ _
    exact clean_spell (additive_actionText _ action)
      (fun text => succeeds_addLine (Nat.lt_succ_self _) text) (lt_of_receiverOf hreceiver)
  | enter block scope =>
    apply Step.Ends.bind_pure
    apply Step.Ends.get_bind
    apply clean_lift
    intro receiver hreceiver
    apply clean_lift
    intro _ _
    exact clean_spell (additive_scopeHeader _ scope)
      (fun header => succeeds_openScope (Nat.lt_succ_self _) header "\x7d")
      (lt_of_receiverOf hreceiver)
  | branch block condition =>
    apply Step.Ends.bind_pure
    apply Step.Ends.get_bind
    apply clean_lift
    intro receiver hreceiver
    exact clean_spell (additive_conditionHeader _ condition)
      (fun header => succeeds_openScopes (Nat.lt_succ_self _) header "\x7d else \x7b" "\x7d")
      (lt_of_receiverOf hreceiver)

/-! ### Sessions -/

theorem size_le_of_run (hpos : 0 < file.document.blocks.size) (call : Call) :
    file.document.blocks.size ≤ (Step.state (call.run file)).document.blocks.size := by
  rcases (clean_run hpos call).state with ⟨noted, hkept⟩ | hsize
  · have hsize := congrArg (fun file : File => file.document.blocks.size) hkept
    exact Nat.le_of_eq hsize.symm
  · exact hsize

theorem render_of_stray {model method : String} (h : file.firstStray? = some (model, method)) :
    File.render file = .error (.brokenReference model method) file := by
  rw [File.render, Step.bind_of_ok (Step.get_apply file), h]
  rfl

theorem render_of_no_stray (h : file.firstStray? = none) :
    File.render file =
      Step.ofExcept (renderFile file.package file.imports file.document) file := by
  rw [File.render, Step.bind_of_ok (Step.get_apply file), h]
  rfl

/-- Rendering leaves the file as it was. -/
theorem state_render (file : File) : Step.state (File.render file) = file := by
  cases hstray : file.firstStray? with
  | some stray =>
    rw [render_of_stray hstray]
    rfl
  | none => rw [render_of_no_stray hstray, Step.state_ofExcept]

/-- The root is there throughout a session. -/
theorem pos_of_session (package : String) (requests : List Request) :
    0 < (Request.session File.render requests
      ({ package } : File)).document.blocks.size := by
  have hserve : ∀ request, Step.Preserves (fun file : File => 0 < file.document.blocks.size)
      (Request.serve File.render request) := by
    intro request file hpos
    cases request with
    | call call =>
      rw [Request.serve, Step.state_bind_pure]
      exact Nat.lt_of_lt_of_le hpos (size_le_of_run hpos call)
    | render =>
      rw [Request.serve, Step.state_bind_pure, state_render]
      exact hpos
  exact Step.attempt_invariant hserve requests Nat.zero_lt_one

theorem commutes_onDocument (noted : Imports) (step : Step Document α) :
    Step.Commutes (File.importing noted) (File.onDocument step) := by
  have hid : Step.Commutes id step := by
    intro document
    rw [id]
    cases step document <;> rfl
  exact Step.Commutes.focus (fun _ => rfl) (fun _ _ => rfl) hid

theorem commutes_onImports (noted : Imports) {step : Step Imports α} (h : Additive step) :
    Step.Commutes (File.importing noted) (File.onImports step) :=
  Step.Commutes.focus (fun _ => rfl) (fun _ _ => rfl) (h.commutes noted)

/-- No call looks at the packages noted so far. -/
theorem commutes_run (noted : Imports) (call : Call) :
    Step.Commutes (File.importing noted) (call.run : Step File Reply) := by
  cases call with
  | model name fields =>
    refine Step.Commutes.bind ?_ fun _ => .pure _
    refine Step.Commutes.bind (.ofExcept (paramTexts fields)) fun texts => ?_
    exact (commutes_onDocument noted _).bind fun _ => .modify fun _ => rfl
  | enumeration name values => exact (commutes_onDocument noted _).bind fun _ => .pure _
  | method owner name params returns =>
    refine Step.Commutes.bind ?_ fun _ => .pure _
    refine Step.Commutes.bind (.ofExcept (signatureText params returns)) fun signature => ?_
    refine Step.Commutes.bind (.ofExcept (checkBindings _ _)) fun _ => ?_
    refine (commutes_onDocument noted _).bind fun body => ?_
    exact Step.Commutes.bind (.modify fun _ => rfl) fun _ => .pure body
  | act block action =>
    refine Step.Commutes.bind ?_ fun _ => .pure _
    refine Step.Commutes.get_bind (fun _ => rfl) fun file => ?_
    refine Step.Commutes.bind (.ofExcept (receiverOf file.document block)) fun receiver => ?_
    refine Step.Commutes.bind (.ofExcept (checkBindings receiver _)) fun _ => ?_
    exact (commutes_onImports noted (additive_actionText _ action)).bind fun _ =>
      commutes_onDocument noted _
  | enter block scope =>
    refine Step.Commutes.bind ?_ fun _ => .pure _
    refine Step.Commutes.get_bind (fun _ => rfl) fun file => ?_
    refine Step.Commutes.bind (.ofExcept (receiverOf file.document block)) fun receiver => ?_
    refine Step.Commutes.bind (.ofExcept (checkBindings receiver _)) fun _ => ?_
    exact (commutes_onImports noted (additive_scopeHeader _ scope)).bind fun _ =>
      commutes_onDocument noted _
  | branch block condition =>
    refine Step.Commutes.bind ?_ fun _ => .pure _
    refine Step.Commutes.get_bind (fun _ => rfl) fun file => ?_
    refine Step.Commutes.bind (.ofExcept (receiverOf file.document block)) fun receiver => ?_
    exact (commutes_onImports noted (additive_conditionHeader _ condition)).bind fun _ =>
      commutes_onDocument noted _

/-- Packages that were noted before a session stay the only difference. -/
theorem attempt_importing (noted : Imports) (requests : List Request) (file : File) :
    Request.session File.render requests (file.importing noted) =
      (Request.session File.render requests file).importing noted := by
  refine Step.attempt_related (R := fun file' file : File => file' = file.importing noted) ?_
    requests rfl
  rintro request _ file rfl
  cases request with
  | call call =>
    rw [Request.serve, Step.state_bind_pure, Step.state_bind_pure, commutes_run noted call file,
      Step.state_mapState]
  | render =>
    rw [Request.serve, Step.state_bind_pure, Step.state_bind_pure, state_render, state_render]

end Polyglot.Go
