import Polyglot.Proofs.Document.Additions
import Polyglot.Proofs.TypeScript.Calls

/-! # Additions to TypeScript files

What a call of a TypeScript file adds can be told from what it says and from two facts about the
document: whether anything was declared before, and to whom the block belongs that it goes to. A
call that adds nothing is refused, and leaves the file as it was.
-/

namespace Polyglot.TypeScript

open Document

variable {document document' : Document} {file : File} {call : Call} {addition : Addition}
  {block : Handle} {fault : Fault}

/-- The model to whose methods a block belongs; there has to be one. -/
def ownerIn (document : Document) (block : Handle) : Except Fault String := do
  match ← document.ownerOf block with
  | some model => return model
  | none => throw (.unsupported target (.looseStatement block))

/-- What a call adds, if it is not refused. -/
def additionOf (document : Document) : Call → Except Fault Addition
  | .model name fields => do
    let lines := (← paramTexts fields).map (· ++ ";")
    return .part document.gap ("export class " ++ name ++ " \x7b") "\x7d" none lines
  | .enumeration name values =>
    return .part document.gap ("export enum " ++ name ++ " \x7b") "\x7d" none (enumLines values)
  | .method owner name params returns =>
    return .member owner (← methodHeader name params returns) "\x7d"
  | .act block action => do
    let text ← actionText action
    let _ ← ownerIn document block
    return .statement block text
  | .enter block scope => do
    let header ← scopeHeader scope
    return .scope block (← ownerIn document block) header "\x7d"
  | .branch block condition => do
    let header ← conditionHeader condition
    return .scopes block (← ownerIn document block) header "\x7d else \x7b" "\x7d"

/-- The file after a call that added something. Models set their block aside, and methods wait. -/
def File.grow (file : File) (call : Call) (addition : Addition) : File where
  document := file.document.add addition
  members := noted file.members (.next file.document.blocks.size) call.order

/-! ### Owners -/

theorem ownerIn_of_find {content : Block} (h : document.blocks[block.index]? = some content) :
    ownerIn document block = match content.owner with
      | some model => .ok model
      | none => .error (.unsupported target (.looseStatement block)) := by
  rw [ownerIn, ownerOf_of_find h]
  cases content.owner <;> rfl

theorem ownerIn_of_none (h : document.blocks[block.index]? = none) :
    ownerIn document block = .error (.invalidBlock block) := by
  simp [ownerIn, ownerOf, blockAt, h, bind, Except.bind]

theorem ownerIn_eq_ok_iff {model : String} :
    ownerIn document block = .ok model ↔ document.ownerAt block = some model := by
  cases hfind : document.blocks[block.index]? with
  | none => simp [ownerIn_of_none hfind, ownerAt, hfind]
  | some content =>
    rw [ownerIn_of_find hfind, ownerAt, hfind]
    cases howner : content.owner <;> simp [howner]

theorem exists_find_of_owner {model : String} (h : ownerIn document block = .ok model) :
    ∃ content, document.blocks[block.index]? = some content ∧ content.owner = some model :=
  Option.bind_eq_some_iff.mp (ownerIn_eq_ok_iff.mp h)

/-- The check of a block is the search for its owner. -/
theorem checkInMethod_of_owner {model : String} (h : ownerIn document block = .ok model) :
    checkInMethod block document = .ok () document := by
  obtain ⟨content, hfind, howner⟩ := exists_find_of_owner h
  exact checkInMethod_of_find hfind howner

theorem checkInMethod_of_fault (h : ownerIn document block = .error fault) :
    checkInMethod block document = .error fault document := by
  rw [checkInMethod, Step.bind_of_ok (Step.get_apply document)]
  cases hfind : document.blocks[block.index]? with
  | none =>
    rw [ownerIn_of_none hfind] at h
    cases h
    simp only [ownerOf, blockAt, hfind]
    rfl
  | some content =>
    rw [ownerIn_of_find hfind] at h
    rw [ownerOf_of_find hfind]
    cases howner : content.owner with
    | none =>
      rw [howner] at h
      cases h
      rfl
    | some model =>
      rw [howner] at h
      cases h

/-! ### Calls -/

section
variable {α : Type} {spelling : Except Fault String} {step : String → Step Document α}

/-- A statement is refused if it cannot be spelled or if its block belongs to no method. -/
theorem statement_of_refused {form : String → String → Addition}
    (h : (do
      let text ← spelling
      let owner ← ownerIn file.document block
      return form text owner) = .error fault) :
    (do
      let text ← (liftM spelling : Step File String)
      File.onDocument do
        checkInMethod block
        step text) file = .error fault file := by
  rcases Step.outcome_bind_eq_error_iff.mp h with hspelling | ⟨text, hspelling, h⟩
  · exact Step.lift_bind_of_error hspelling
  · rcases Step.outcome_bind_eq_error_iff.mp h with howner | ⟨owner, -, ⟨⟩⟩
    rw [Step.lift_bind_of_ok hspelling]
    exact onDocument_unchecked (checkInMethod_of_fault howner)

/-- A statement that is spelled goes into its block, if that belongs to a method. -/
theorem statement_of_owner {text owner : String} {a : α} (hspelling : spelling = .ok text)
    (howner : ownerIn file.document block = .ok owner)
    (hstep : step text file.document = .ok a document) :
    (do
      let text ← (liftM spelling : Step File String)
      File.onDocument do
        checkInMethod block
        step text) file = .ok a { file with document } := by
  rw [Step.lift_bind_of_ok hspelling]
  apply onDocument_of_ok
  rw [Step.bind_of_ok (checkInMethod_of_owner howner), hstep]

end

theorem run_of_refused (h : additionOf file.document call = .error fault) :
    call.run file = .error fault file := by
  cases call with
  | model name fields =>
    rcases Step.outcome_bind_eq_error_iff.mp h with htexts | ⟨texts, -, ⟨⟩⟩
    exact Step.bind_of_error (Step.lift_bind_of_error htexts)
  | enumeration name values => cases h
  | method owner name params returns =>
    rcases Step.outcome_bind_eq_error_iff.mp h with hheader | ⟨header, -, ⟨⟩⟩
    exact Step.bind_of_error (Step.lift_bind_of_error hheader)
  | act block action => exact Step.bind_of_error (statement_of_refused h)
  | enter block scope => exact Step.bind_of_error (statement_of_refused h)
  | branch block condition => exact Step.bind_of_error (statement_of_refused h)

/-- A call that is not refused adds what it says, and replies with the new blocks. -/
theorem run_of_addition (hroot : Handle.root.index < file.document.blocks.size)
    (h : additionOf file.document call = .ok addition)
    (hroom : file.document.blocks.size + addition.news.length ≤ Handle.count) :
    call.run file = .ok (addition.reply file.document.blocks.size) (file.grow call addition) := by
  have hfind := Array.getElem?_eq_getElem hroot
  cases call with
  | model name fields =>
    obtain ⟨texts, htexts, ⟨⟩⟩ := Step.outcome_bind_eq_ok_iff.mp h
    rw [Call.run, Step.bind_of_ok (model_of_find hroom hfind htexts), File.grow, add_eq_extend,
      separator_eq_gap hfind]
    · rfl
    · exact hroot
  | enumeration name values =>
    cases h
    rw [Call.run, Step.bind_of_ok (enumeration_of_find hroom hfind name values), File.grow,
      add_eq_extend, separator_eq_gap hfind]
    · rfl
    · exact hroot
  | method owner name params returns =>
    obtain ⟨header, hheader, ⟨⟩⟩ := Step.outcome_bind_eq_ok_iff.mp h
    have hlt : file.document.blocks.size < Handle.count := Nat.lt_of_succ_lt hroom
    rw [Call.run, Step.bind_of_ok (method_of_lt hlt hheader), File.grow, add_member_eq_extend hlt]
    rfl
  | act block action =>
    obtain ⟨text, htext, h⟩ := Step.outcome_bind_eq_ok_iff.mp h
    obtain ⟨owner, howner, ⟨⟩⟩ := Step.outcome_bind_eq_ok_iff.mp h
    have howned := Option.isSome_of_eq_some (ownerIn_eq_ok_iff.mp howner)
    exact Step.bind_of_ok (statement_of_owner htext howner (addLine_eq_add howned text))
  | enter block scope =>
    obtain ⟨header, hheader, h⟩ := Step.outcome_bind_eq_ok_iff.mp h
    obtain ⟨owner, howner, ⟨⟩⟩ := Step.outcome_bind_eq_ok_iff.mp h
    have hopen := openScope_eq_add (ownerIn_eq_ok_iff.mp howner) header "\x7d"
    exact Step.bind_of_ok (statement_of_owner hheader howner hopen)
  | branch block condition =>
    obtain ⟨header, hheader, h⟩ := Step.outcome_bind_eq_ok_iff.mp h
    obtain ⟨owner, howner, ⟨⟩⟩ := Step.outcome_bind_eq_ok_iff.mp h
    have hopen := openScopes_eq_add (ownerIn_eq_ok_iff.mp howner) header "\x7d else \x7b" "\x7d"
    have hbranch : Target.branch block condition file = _ :=
      statement_of_owner hheader howner hopen
    exact Step.bind_of_ok hbranch

/-- What a call adds depends on the document in two respects only. -/
theorem additionOf_congr (hgap : document'.gap = document.gap)
    (howner : ∀ block, document'.ownerOf block = document.ownerOf block) (call : Call) :
    additionOf document' call = additionOf document call := by
  have hin : ∀ block, ownerIn document' block = ownerIn document block := by
    intro block
    rw [ownerIn, ownerIn, howner]
  cases call <;> simp only [additionOf, hgap, hin]

/-- The forms of what calls add. -/
inductive Forms (document : Document) : Call → Addition → Prop
  | model (name : String) (fields : List Field) (header footer : String) (body : List String) :
      Forms document (.model name fields) (.part document.gap header footer none body)
  | enumeration (name : String) (values : List String) (header footer : String)
      (body : List String) :
      Forms document (.enumeration name values) (.part document.gap header footer none body)
  | method (owner name : String) (params : List Field) (returns : Option Ty)
      (header footer : String) :
      Forms document (.method owner name params returns) (.member owner header footer)
  | act {block : Handle} {owner : String} (howner : document.ownerAt block = some owner)
      (action : Action) (text : String) : Forms document (.act block action) (.statement block text)
  | enter {block : Handle} {owner : String} (howner : document.ownerAt block = some owner)
      (scope : Scope) (header footer : String) :
      Forms document (.enter block scope) (.scope block owner header footer)
  | branch {block : Handle} {owner : String} (howner : document.ownerAt block = some owner)
      (condition : Value) (header divider footer : String) :
      Forms document (.branch block condition) (.scopes block owner header divider footer)

theorem forms_of_addition (h : additionOf document call = .ok addition) :
    Forms document call addition := by
  cases call with
  | model name fields =>
    obtain ⟨texts, -, ⟨⟩⟩ := Step.outcome_bind_eq_ok_iff.mp h
    exact .model ..
  | enumeration name values =>
    cases h
    exact .enumeration ..
  | method owner name params returns =>
    obtain ⟨header, -, ⟨⟩⟩ := Step.outcome_bind_eq_ok_iff.mp h
    exact .method ..
  | act block action =>
    obtain ⟨text, -, h⟩ := Step.outcome_bind_eq_ok_iff.mp h
    obtain ⟨owner, howner, ⟨⟩⟩ := Step.outcome_bind_eq_ok_iff.mp h
    exact .act (ownerIn_eq_ok_iff.mp howner) ..
  | enter block scope =>
    obtain ⟨header, -, h⟩ := Step.outcome_bind_eq_ok_iff.mp h
    obtain ⟨owner, howner, ⟨⟩⟩ := Step.outcome_bind_eq_ok_iff.mp h
    exact .enter (ownerIn_eq_ok_iff.mp howner) ..
  | branch block condition =>
    obtain ⟨header, -, h⟩ := Step.outcome_bind_eq_ok_iff.mp h
    obtain ⟨owner, howner, ⟨⟩⟩ := Step.outcome_bind_eq_ok_iff.mp h
    exact .branch (ownerIn_eq_ok_iff.mp howner) ..

theorem Forms.suits (h : Forms document call addition) : addition.Suits document := by
  cases h with
  | act howner => exact Option.isSome_of_eq_some howner
  | enter howner => exact howner
  | branch howner => exact howner
  | _ => trivial

/-- A call takes as many blocks as it adds. -/
theorem Forms.size_of_run (h : Forms file.document call addition) {reply : Reply} {file' : File}
    (hrun : call.run file = .ok reply file') :
    file'.document.blocks.size = file.document.blocks.size + addition.news.length := by
  have hsize := Call.measure_of_run (fun handles => adds_run handles call.order 0) hrun
  cases h <;> exact hsize

/-- A call that is not refused succeeds, even if there are not enough handles for its blocks. -/
theorem succeeds_of_addition (hroot : Handle.root.index < file.document.blocks.size)
    (h : additionOf file.document call = .ok addition) :
    ∃ reply file', call.run file = .ok reply file' := by
  have hmethod : ∀ {block : Handle} {owner : String},
      ownerIn file.document block = .ok owner → InMethod file.document block := by
    intro block owner howner
    obtain ⟨content, hfind, hmodel⟩ := exists_find_of_owner howner
    exact ⟨content, owner, hfind, hmodel⟩
  cases call with
  | model name fields =>
    obtain ⟨texts, htexts, -⟩ := Step.outcome_bind_eq_ok_iff.mp h
    obtain ⟨file', hrun, -⟩ := model_of_spelled hroot name htexts
    exact ⟨_, file', Step.bind_of_ok hrun⟩
  | enumeration name values =>
    obtain ⟨file', hrun, -⟩ := enumeration_of_pos hroot name values
    exact ⟨_, file', Step.bind_of_ok hrun⟩
  | method owner name params returns =>
    obtain ⟨header, hheader, -⟩ := Step.outcome_bind_eq_ok_iff.mp h
    obtain ⟨body, file', hrun, -⟩ := method_of_spelled hroot owner name hheader
    exact ⟨_, file', Step.bind_of_ok hrun⟩
  | act block action =>
    obtain ⟨text, htext, h⟩ := Step.outcome_bind_eq_ok_iff.mp h
    obtain ⟨owner, howner, -⟩ := Step.outcome_bind_eq_ok_iff.mp h
    obtain ⟨file', hrun, -⟩ := act_of_spelled (hmethod howner) htext
    exact ⟨_, file', Step.bind_of_ok hrun⟩
  | enter block scope =>
    obtain ⟨header, hheader, h⟩ := Step.outcome_bind_eq_ok_iff.mp h
    obtain ⟨owner, howner, -⟩ := Step.outcome_bind_eq_ok_iff.mp h
    obtain ⟨inner, file', hrun, -⟩ := enter_of_spelled (hmethod howner) hheader
    exact ⟨_, file', Step.bind_of_ok hrun⟩
  | branch block condition =>
    obtain ⟨header, hheader, h⟩ := Step.outcome_bind_eq_ok_iff.mp h
    obtain ⟨owner, howner, -⟩ := Step.outcome_bind_eq_ok_iff.mp h
    obtain ⟨inner, file', hrun, -⟩ := branch_of_spelled (hmethod howner) hheader
    exact ⟨_, file', Step.bind_of_ok hrun⟩

/-- What a call did that found enough handles for its blocks. -/
theorem exists_addition (hroot : Handle.root.index < file.document.blocks.size) {reply : Reply}
    {file' : File} (hrun : call.run file = .ok reply file')
    (hroom : file'.document.blocks.size ≤ Handle.count) :
    ∃ addition, additionOf file.document call = .ok addition ∧
      file.document.blocks.size + addition.news.length ≤ Handle.count ∧
      reply = addition.reply file.document.blocks.size ∧ file' = file.grow call addition := by
  cases h : additionOf file.document call with
  | error fault =>
    rw [run_of_refused h] at hrun
    cases hrun
  | ok addition =>
    rw [(forms_of_addition h).size_of_run hrun] at hroom
    rw [run_of_addition hroot h hroom] at hrun
    cases hrun
    exact ⟨addition, rfl, hroom, rfl, rfl⟩

end Polyglot.TypeScript
