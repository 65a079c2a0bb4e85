import Polyglot.Proofs.Go.Rendering
import Polyglot.Proofs.Offences
import Polyglot.Proofs.TypeScript.Progress
import Polyglot.Proofs.TypeScript.Rendering

/-! # Agreement of the languages

Both languages mean the same by a valid program. Whatever Go spells, TypeScript spells as well: it
has no receiver to look after and checks fewer types. And a method without a model is the same
fault in both, though one looks through a list of models and the other for a block to move to.
-/

namespace Polyglot

open Script

/-! ### Spelling -/

/-- Whenever the step succeeds, so does the other spelling. -/
def Covered {α β : Type} (step : Step Imports α) (spelling : Except Fault β) : Prop :=
  ∀ ⦃imports a imports'⦄, step imports = .ok a imports' → ∃ b, spelling = .ok b

namespace Covered

variable {α β γ δ : Type}

theorem pure {step : Step Imports α} (b : β) :
    Covered step (Pure.pure b : Except Fault β) := by
  intro imports a imports' _
  exact ⟨b, rfl⟩

theorem bind {step : Step Imports α} {next : α → Step Imports β} {spelling : Except Fault γ}
    {rest : γ → Except Fault δ} (h : Covered step spelling)
    (hrest : ∀ a c, Covered (next a) (rest c)) :
    Covered (step >>= next) (spelling >>= rest) := by
  intro imports b imports' hrun
  obtain ⟨a, between, hstep, hnext⟩ := Step.bind_eq_ok_iff.mp hrun
  obtain ⟨c, rfl⟩ := h hstep
  exact hrest a c hnext

/-- What only the step checks does not matter. -/
theorem after {step : Step Imports α} {next : α → Step Imports β} {spelling : Except Fault γ}
    (h : ∀ a, Covered (next a) spelling) : Covered (step >>= next) spelling := by
  intro imports b imports' hrun
  obtain ⟨a, between, -, hnext⟩ := Step.bind_eq_ok_iff.mp hrun
  exact h a hnext

end Covered

theorem covered_type (ty : Ty) : Covered (liftM (Go.typeText ty)) (TypeScript.typeText ty) := by
  intro imports text imports' h
  have hgo : Go.typeText ty = .ok text :=
    (Step.result_ofExcept _ imports).symm.trans (congrArg Step.result h)
  have hfree := (Go.reports_typeText ty).succeeds_iff.mp ⟨text, hgo⟩
  exact (TypeScript.reports_typeText ty).succeeds_iff.mpr hfree

/-- A value that Go spells is spelled in TypeScript. -/
theorem covered_value (receiver : Option String) (value : Value) :
    Covered (Go.valueText receiver value) (TypeScript.valueText value) := by
  intro imports text imports' h
  have hgo : Step.result (Go.valueText receiver value imports) = .ok text := by
    rw [h]
    rfl
  have hfree := (Go.reports_valueText receiver value imports).succeeds_iff.mp ⟨text, hgo⟩
  refine (TypeScript.reports_valueText value).succeeds_iff.mpr ?_
  rw [Value.offences_eq_nil_iff] at hfree ⊢
  exact fun part hholds => TypeScript.offences_of_go (hfree part hholds)

theorem covered_operand (receiver : Option String) (value : Value) :
    Covered (Go.operandText receiver value) (TypeScript.valueText value) := by
  intro imports text imports' h
  obtain ⟨_, _, hvalue, -⟩ := Step.bind_eq_ok_iff.mp h
  exact covered_value receiver value hvalue

theorem covered_params (fields : List Field) :
    Covered (liftM (Go.paramTexts fields)) (TypeScript.paramTexts fields) := by
  induction fields with
  | nil => exact .pure _
  | cons field rest ih =>
    have hfield : Covered (liftM (Go.paramText field)) (TypeScript.paramText field) := by
      rw [Go.paramText, Step.lift_bind]
      exact (covered_type field.ty).bind fun _ _ => .pure _
    rw [Go.paramTexts, Step.lift_bind]
    refine hfield.bind fun _ _ => ?_
    rw [Step.lift_bind]
    exact ih.bind fun _ _ => .pure _

theorem covered_header (name : String) (params : List Field) (returns : Option Ty) :
    Covered (liftM (Go.signatureText params returns))
      (TypeScript.methodHeader name params returns) := by
  rw [Go.signatureText, Step.lift_bind]
  refine (covered_params params).bind fun _ _ => ?_
  cases returns with
  | none => exact .pure _
  | some ty =>
    simp only [Step.lift_bind]
    exact (covered_type ty).bind fun _ _ => .pure _

theorem covered_action (receiver : Option String) (action : Action) :
    Covered (Go.actionText receiver action) (TypeScript.actionText action) := by
  cases action with
  | declare name value => exact (covered_value receiver value).bind fun _ _ => .pure _
  | giveBack value => exact (covered_value receiver value).bind fun _ _ => .pure _
  | mapPut map key value =>
    refine (covered_value receiver map).bind fun _ _ => ?_
    refine (covered_value receiver key).bind fun _ _ => ?_
    exact (covered_value receiver value).bind fun _ _ => .pure _
  | removeValue array index =>
    refine (covered_value receiver array).bind fun _ _ => ?_
    exact (covered_operand receiver index).bind fun _ _ => .pure _
  | assign target source =>
    refine (covered_value receiver target).bind fun _ _ => ?_
    exact (covered_value receiver source).bind fun _ _ => .pure _
  | appendValue array value =>
    refine (covered_value receiver array).bind fun _ _ => ?_
    exact (covered_value receiver value).bind fun _ _ => .pure _
  | appendArray array values =>
    refine (covered_value receiver array).bind fun _ _ => ?_
    exact (covered_value receiver values).bind fun _ _ => .pure _
  | mapDelete map key =>
    refine (covered_value receiver map).bind fun _ _ => ?_
    exact (covered_value receiver key).bind fun _ _ => .pure _

theorem covered_condition (receiver : Option String) (condition : Value) :
    Covered (Go.conditionHeader receiver condition) (TypeScript.conditionHeader condition) :=
  (covered_value receiver condition).bind fun _ _ => .pure _

/-- A clause that Go accepts can be spelled in TypeScript. -/
theorem covered_phrase (clause : Clause) :
    Covered (Go.phrase clause) (TypeScript.phrase clause) := by
  cases clause with
  | model name fields => exact (covered_params fields).bind fun _ _ => .pure _
  | enumeration name values => exact .pure _
  | method owner name params returns =>
    exact (covered_header name params returns).bind fun _ _ => .pure _
  | act model action =>
    exact .after fun _ => (covered_action _ action).bind fun _ _ => .pure _
  | enter model scope =>
    refine .after fun _ => Covered.bind ?_ fun _ _ => .pure _
    cases scope with
    | forEach array indexName valueName =>
      exact (covered_value _ array).bind fun _ _ => .pure _
    | ifThen condition => exact covered_condition _ condition
  | branch model condition => exact (covered_condition _ condition).bind fun _ _ => .pure _

/-! ### Programs -/

namespace Program

/-- The methods that a program declares, in order. -/
def methods (program : Program) : List Method :=
  program.decls.toList.filterMap fun
    | .method method => some method
    | _ => none

/-- The models that a program declares. -/
def models (program : Program) : List String :=
  program.decls.toList.filterMap fun
    | .model name _ => some name
    | _ => none

/-- The first method, in the order of declarations, whose model is declared nowhere. -/
def firstStray? (program : Program) : Option Method :=
  program.methods.find? fun method => !program.models.contains method.model

theorem models_unfold (program : Program) : Section.models program.unfold = program.models := by
  rw [Section.models, unfold, models, List.filterMap_map]
  congr 1
  funext decl
  cases decl <;> rfl

theorem methods_unfold (program : Program) :
    Section.methods program.unfold =
      program.methods.map fun method => (method.model, method.name) := by
  rw [Section.methods, unfold, methods, List.filterMap_map, List.map_filterMap]
  congr 1
  funext decl
  cases decl <;> rfl

theorem firstStray?_unfold (program : Program) :
    Section.firstStray? program.unfold =
      program.firstStray?.map fun method => (method.model, method.name) := by
  rw [Section.firstStray?, models_unfold, methods_unfold, List.find?_map, firstStray?]
  rfl

/-- A program that can be replayed into a Go file can be replayed into a TypeScript file. -/
theorem exists_replay_of_replay {program : Program} {package : String} {file : Go.File}
    (h : program.replay ({ package } : Go.File) = .ok () file)
    (hroom : file.document.blocks.size ≤ Handle.count)
    (hroom' : (Step.state (program.replay ({} : TypeScript.File))).document.blocks.size ≤
      Handle.count) :
    ∃ file', program.replay ({} : TypeScript.File) = .ok () file' := by
  obtain ⟨hwhole, handles, hrun⟩ := replay_eq_ok_iff.mp h
  have hscoped := Section.scoped_script program.unfold
  have hsize := (Go.drafting package).size_of_run hrun
  obtain ⟨-, haccepts⟩ := (Go.drafting package).holds_of_run hscoped (hsize ▸ hroom) hrun
  rw [replay_eq_run hwhole, Step.state_bind_pure] at hroom'
  have hspelled : ∀ order ∈ Section.script program.unfold, ∃ spelled, TypeScript.phrase
      (order.clause (ownerOf (Section.script program.unfold))) = .ok spelled := by
    intro order horder
    obtain ⟨_, _, hphrase⟩ := haccepts order horder
    exact covered_phrase _ hphrase
  obtain ⟨handles', file', hrun'⟩ := TypeScript.run_of_phrase hscoped hspelled hroom'
  exact ⟨file', replay_eq_ok_iff.mpr ⟨hwhole, handles', hrun'⟩⟩

end Program

/-- Both languages agree on what a valid program is. A program that can be replayed into a Go file
can be replayed into a TypeScript file; and if it was replayed into both, then both files can be
rendered if every method has its model, and otherwise both name the first method that has not. -/
theorem replay_agreement (program : Program) (package : String)
    (hgo : (Step.state (program.replay ({ package } : Go.File))).document.blocks.size ≤
      Handle.count)
    (htypeScript : (Step.state (program.replay ({} : TypeScript.File))).document.blocks.size ≤
      Handle.count) :
    ((∃ file, program.replay ({ package } : Go.File) = .ok () file) →
      ∃ file, program.replay ({} : TypeScript.File) = .ok () file) ∧
    ∀ goFile typeScriptFile, program.replay ({ package } : Go.File) = .ok () goFile →
      program.replay ({} : TypeScript.File) = .ok () typeScriptFile →
      (program.firstStray? = none ∧
        (∃ text, Step.result (Go.File.render goFile) = .ok text) ∧
        ∃ text, Step.result (TypeScript.File.render typeScriptFile) = .ok text) ∨
      ∃ method, program.firstStray? = some method ∧
        Step.result (Go.File.render goFile) =
          .error (.brokenReference method.model method.name) ∧
        Step.result (TypeScript.File.render typeScriptFile) =
          .error (.brokenReference method.model method.name) := by
  constructor
  · rintro ⟨file, hreplay⟩
    rw [hreplay] at hgo
    exact Program.exists_replay_of_replay hreplay hgo htypeScript
  · intro goFile typeScriptFile hgoReplay htypeScriptReplay
    rw [hgoReplay] at hgo
    rw [htypeScriptReplay] at htypeScript
    have hgoRender := (Go.renders package).of_replay hgoReplay hgo
    have htypeScriptRender := TypeScript.renders.of_replay htypeScriptReplay htypeScript
    rw [Section.rendered, Program.firstStray?_unfold] at hgoRender htypeScriptRender
    cases hstray : program.firstStray? with
    | none =>
      rw [hstray] at hgoRender htypeScriptRender
      exact .inl ⟨rfl, ⟨_, hgoRender⟩, ⟨_, htypeScriptRender⟩⟩
    | some method =>
      rw [hstray] at hgoRender htypeScriptRender
      exact .inr ⟨method, rfl, hgoRender, htypeScriptRender⟩

/-- A program whose second method has no model; the model of the first one follows it. -/
def orphaned : Program where
  decls := #[
    .method { model := "Shop", name := "open", params := [], returns := none, body := ⟨0⟩ },
    .method { model := "Till", name := "count", params := [], returns := none, body := ⟨1⟩ },
    .model "Shop" [⟨"till", .model "Till"⟩],
    .method { model := "Tax", name := "rate", params := [], returns := none, body := ⟨1⟩ }]
  blocks := #[#[.enter (.ifThen (.bool true)) ⟨1⟩], #[.act (.declare "n" (.intToText (.int 1)))]]

theorem replay_agreement_orphaned : ∃ goFile typeScriptFile,
    orphaned.replay ({ package := "shop" } : Go.File) = .ok () goFile ∧
    orphaned.replay ({} : TypeScript.File) = .ok () typeScriptFile ∧
    Step.result (Go.File.render goFile) = .error (.brokenReference "Till" "count") ∧
    Step.result (TypeScript.File.render typeScriptFile) =
      .error (.brokenReference "Till" "count") := by
  obtain ⟨hreplays, hrenders⟩ :=
    replay_agreement orphaned "shop" (by decide +kernel) (by decide +kernel)
  obtain ⟨_, goFile, hgo, -⟩ := Step.exists_of_leaves (by decide +kernel :
    Step.leaves (fun _ => true) (orphaned.replay ({ package := "shop" } : Go.File)) = true)
  obtain ⟨typeScriptFile, htypeScript⟩ := hreplays ⟨goFile, hgo⟩
  have hstray : orphaned.firstStray?.map (fun method => (method.model, method.name)) =
      some ("Till", "count") := by decide
  rcases hrenders goFile typeScriptFile hgo htypeScript with ⟨hnone, -⟩ | ⟨method, hsome, hfaults⟩
  · rw [hnone] at hstray
    cases hstray
  · rw [hsome] at hstray
    obtain ⟨hmodel, hname⟩ := Prod.mk.inj (Option.some.inj hstray)
    rw [← hmodel, ← hname]
    exact ⟨goFile, typeScriptFile, hgo, htypeScript, hfaults⟩

end Polyglot
