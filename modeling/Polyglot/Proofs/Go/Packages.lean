import Polyglot.File.Go
import Polyglot.Proofs.Imports
import Polyglot.Proofs.Step

/-! # Noted packages

Spelling notes packages, but does not look at those already noted: what it returns does not depend
on them, and what it notes is added to them.
-/

namespace Polyglot

/-- An outcome with the packages that were noted before. -/
def Imports.prior {α : Type} (imports : Imports) :
    EStateM.Result Fault Imports α → EStateM.Result Fault Imports α
  | .ok a noted => .ok a (imports.union noted)
  | .error fault noted => .error fault (imports.union noted)

/-- A step that adds to the packages already noted and does not look at them. -/
def Additive {α : Type} (step : Step Imports α) : Prop :=
  ∀ imports, step imports = imports.prior (step {})

namespace Additive

variable {α β : Type} {step first : Step Imports α} {next : α → Step Imports β}

theorem pure (a : α) : Additive (Pure.pure a : Step Imports α) := by
  intro imports
  simp [Imports.prior]

theorem throw (fault : Fault) : Additive (throw fault : Step Imports α) := by
  intro imports
  simp [Imports.prior]

theorem ofExcept (outcome : Except Fault α) :
    Additive (Step.ofExcept outcome : Step Imports α) := by
  cases outcome with
  | ok a => exact pure a
  | error fault => exact throw fault

theorem bind (hfirst : Additive first) (hnext : ∀ a, Additive (next a)) :
    Additive (first >>= next) := by
  intro imports
  have hstart := hfirst imports
  cases hfresh : first {} with
  | ok a noted =>
    rw [hfresh] at hstart
    rw [Step.bind_of_ok hfresh, Step.bind_of_ok hstart, hnext a (imports.union noted),
      hnext a noted]
    cases next a {} <;> simp [Imports.prior, Imports.union_assoc]
  | error fault noted =>
    rw [hfresh] at hstart
    rw [Step.bind_of_error hfresh, Step.bind_of_error hstart]
    rfl

/-- What a step that adds notes, starting with some packages. -/
theorem eq_ok_iff (h : Additive step) {imports imports' : Imports} {a : α} :
    step imports = .ok a imports' ↔
      ∃ noted, step {} = .ok a noted ∧ imports' = imports.union noted := by
  rw [h imports]
  cases step {} with
  | ok b noted =>
    constructor
    · rintro ⟨⟩
      exact ⟨noted, rfl, rfl⟩
    · rintro ⟨_, ⟨⟩, rfl⟩
      rfl
  | error fault noted => simp [Imports.prior]

/-- Whether or not a step that adds stops, it notes packages and forgets none. -/
theorem exists_union (h : Additive step) (imports : Imports) :
    ∃ noted, Step.state (step imports) = imports.union noted := by
  refine ⟨Step.state (step {}), ?_⟩
  rw [h imports]
  cases step {} <;> rfl

/-- A step that adds does the same with further packages noted before. -/
theorem commutes (h : Additive step) (noted : Imports) :
    Step.Commutes (fun imports => imports.union noted) step := by
  intro imports
  have hswap : ∀ further, (imports.union noted).union further =
      (imports.union further).union noted := by
    intro further
    ext package
    simp [Bool.or_right_comm]
  rw [h (imports.union noted), h imports]
  cases step {} <;> simp [Imports.prior, Step.mapState, hswap]

theorem result_prior (imports : Imports) (outcome : EStateM.Result Fault Imports α) :
    Step.result (imports.prior outcome) = Step.result outcome := by
  cases outcome <;> rfl

/-- What comes of steps that add packages does not depend on the packages before them. -/
theorem result_bind (hnext : ∀ a, Additive (next a)) : Step.result ((first >>= next) {}) = (do
    let a ← Step.result (first {})
    Step.result (next a {})) := by
  cases hfirst : first {} with
  | ok a noted =>
    rw [Step.bind_of_ok hfirst, hnext a noted, result_prior]
    rfl
  | error fault noted =>
    rw [Step.bind_of_error hfirst]
    rfl

end Additive

namespace Go

theorem additive_refer (package : Package) : Additive (refer package) := by
  intro imports
  simp only [refer, Step.modify_apply, Imports.prior, EStateM.Result.ok.injEq, true_and]
  ext other
  simp [Bool.or_comm]

theorem additive_floatText (bits : UInt64) : Additive (floatText bits) := by
  rw [floatText]
  split
  · exact .pure _
  · exact (additive_refer .math).bind fun _ => .pure _

mutual
/-- Spelling a value adds to the packages noted. -/
theorem additive_valueText (receiver : Option String) :
    (value : Value) → Additive (valueText receiver value)
  | .null => .pure _
  | .text _ => .pure _
  | .int _ => .pure _
  | .float bits => additive_floatText bits
  | .bool _ => .pure _
  | .array element elements => by
    rw [valueText]
    refine (Additive.ofExcept (typeText (.array element))).bind fun _ => ?_
    exact (additive_valueTexts receiver elements).bind fun _ => .pure _
  | .map key value entries => by
    rw [valueText]
    refine (Additive.ofExcept (typeText (.map key value))).bind fun _ => ?_
    exact (additive_entryTexts receiver entries).bind fun _ => .pure _
  | .binding _ => .pure _
  | .ownField field => by
    cases receiver with
    | none =>
      rw [valueText]
      exact .throw _
    | some name =>
      rw [valueText]
      exact (additive_valueText (some name) field).bind fun _ => .pure _
  | .modelField _ field => by
    rw [valueText]
    exact (additive_valueText receiver field).bind fun _ => .pure _
  | .arrayElement source index => by
    rw [valueText]
    refine (additive_valueText receiver source).bind fun _ => ?_
    exact (additive_valueText receiver index).bind fun _ => .pure _
  | .mapElement source key => by
    rw [valueText]
    refine (additive_valueText receiver source).bind fun _ => ?_
    exact (additive_valueText receiver key).bind fun _ => .pure _
  | .combined left _ right => by
    rw [valueText]
    refine (additive_valueText receiver left).bind fun _ => ?_
    exact (additive_valueText receiver right).bind fun _ => .pure _
  | .intToText inner => by
    rw [valueText]
    refine (additive_refer .strconv).bind fun _ => ?_
    exact (additive_valueText receiver inner).bind fun _ => .pure _

theorem additive_valueTexts (receiver : Option String) :
    (values : List Value) → Additive (valueTexts receiver values)
  | [] => .pure _
  | value :: rest => by
    rw [valueTexts]
    refine (additive_valueText receiver value).bind fun _ => ?_
    exact (additive_valueTexts receiver rest).bind fun _ => .pure _

theorem additive_entryTexts (receiver : Option String) :
    (entries : List (Value × Value)) → Additive (entryTexts receiver entries)
  | [] => .pure _
  | (key, value) :: rest => by
    rw [entryTexts]
    refine (additive_valueText receiver key).bind fun _ => ?_
    refine (additive_valueText receiver value).bind fun _ => ?_
    exact (additive_entryTexts receiver rest).bind fun _ => .pure _
end

theorem additive_operandText (receiver : Option String) (value : Value) :
    Additive (operandText receiver value) :=
  (additive_valueText receiver value).bind fun _ => .pure _

theorem additive_actionText (receiver : Option String) (action : Action) :
    Additive (actionText receiver action) := by
  have hvalue := additive_valueText receiver
  cases action with
  | assign target source =>
    exact (hvalue target).bind fun _ => (hvalue source).bind fun _ => .pure _
  | declare name value => exact (hvalue value).bind fun _ => .pure _
  | appendValue array value =>
    exact (hvalue array).bind fun _ => (hvalue value).bind fun _ => .pure _
  | appendArray array values =>
    exact (hvalue array).bind fun _ => (hvalue values).bind fun _ => .pure _
  | removeValue array index =>
    refine (hvalue array).bind fun _ => ?_
    exact (additive_operandText receiver index).bind fun _ => .pure _
  | mapPut map key value =>
    refine (hvalue map).bind fun _ => (hvalue key).bind fun _ => ?_
    exact (hvalue value).bind fun _ => .pure _
  | mapDelete map key => exact (hvalue map).bind fun _ => (hvalue key).bind fun _ => .pure _
  | giveBack value => exact (hvalue value).bind fun _ => .pure _

theorem additive_conditionHeader (receiver : Option String) (condition : Value) :
    Additive (conditionHeader receiver condition) :=
  (additive_valueText receiver condition).bind fun _ => .pure _

theorem additive_scopeHeader (receiver : Option String) (scope : Scope) :
    Additive (scopeHeader receiver scope) := by
  cases scope with
  | forEach array indexName valueName =>
    exact (additive_valueText receiver array).bind fun _ => .pure _
  | ifThen condition => exact additive_conditionHeader receiver condition

end Go

end Polyglot
