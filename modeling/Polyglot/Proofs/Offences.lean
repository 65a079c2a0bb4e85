import Mathlib.Logic.Basic
import Polyglot.Lowering.Go
import Polyglot.Lowering.TypeScript
import Polyglot.Proofs.Parts
import Polyglot.Proofs.Step

/-! # What cannot be spelled

Pointers cannot be spelled in either target, and Go has no word for the receiver where there is
none. What offends in a value is listed in preorder: a value itself before its parts, these in the
order in which they are spelled, the key of a map type before its value, and a pointer before those
inside of it. A value is spelled exactly if nothing in it offends; otherwise the fault names what
comes first in this list.
-/

namespace Polyglot

/-! ### Pointers in types -/

namespace Ty

/-- Whether the type has a pointer in it, at any depth. -/
def hasPointer : Ty → Bool
  | .primitive _ | .model _ => false
  | .array element => element.hasPointer
  | .map key value => key.hasPointer || value.hasPointer
  | .pointer _ => true

/-- The pointers in the type, in preorder. -/
def pointers : Ty → List Ty
  | .primitive _ | .model _ => []
  | .array element => element.pointers
  | .map key value => key.pointers ++ value.pointers
  | .pointer pointee => .pointer pointee :: pointee.pointers

theorem pointers_ne_nil_iff (ty : Ty) : ty.pointers ≠ [] ↔ ty.hasPointer = true := by
  induction ty with
  | map key value ihKey ihValue =>
    rw [pointers, hasPointer, Bool.or_eq_true, ← ihKey, ← ihValue, ne_eq, List.append_eq_nil_iff,
      not_and_or]
  | array element ih => exact ih
  | _ => simp [pointers, hasPointer]

end Ty

/-! ### Offences of values -/

namespace Value

/-- The types that a literal is written with: of its elements, or of its keys and values. -/
def types : Value → List Ty
  | .array element _ => [element]
  | .map key value _ => [key, value]
  | _ => []

/-- What offends in the value, in preorder, given what offends in each part by itself. -/
def offences (own : Value → List Construct) (value : Value) : List Construct :=
  value.preorder.flatMap own

variable {own : Value → List Construct} {value : Value}

theorem offences_eq : value.offences own = own value ++ value.children.flatMap (offences own) := by
  rw [offences, preorder_eq, List.flatMap_cons, List.flatMap_assoc]
  rfl

theorem offences_eq_nil_iff :
    value.offences own = [] ↔ ∀ part, value.Holds part → own part = [] := by
  simp only [offences, List.flatMap_eq_nil_iff, mem_preorder]

theorem offences_ne_nil_iff :
    value.offences own ≠ [] ↔ ∃ part, value.Holds part ∧ own part ≠ [] := by
  rw [ne_eq, offences_eq_nil_iff]
  simp

end Value

/-- In TypeScript only the types of maps are spelled. -/
def TypeScript.offences : Value → List Construct
  | .map key value _ => (key.pointers ++ value.pointers).map .pointerType
  | _ => []

/-- In Go the types of arrays are spelled as well, and members need a receiver. -/
def Go.offences (receiver : Option String) : Value → List Construct
  | .array element _ => element.pointers.map .pointerType
  | .map key value _ => (key.pointers ++ value.pointers).map .pointerType
  | .ownField _ => if receiver = none then [.looseReceiverField] else []
  | _ => []

theorem TypeScript.offences_ne_nil_iff (value : Value) :
    offences value ≠ [] ↔ value.kind = .map ∧ ∃ ty ∈ value.types, ty.hasPointer = true := by
  cases value with
  | map key value entries =>
    simp [offences, Value.kind, Value.types, ← Ty.pointers_ne_nil_iff, imp_iff_not_or]
  | _ => simp [offences, Value.kind]

theorem Go.offences_ne_nil_iff (receiver : Option String) (value : Value) :
    offences receiver value ≠ [] ↔ (∃ ty ∈ value.types, ty.hasPointer = true) ∨
      receiver = none ∧ value.kind = .ownField := by
  cases value with
  | array element elements =>
    simp [offences, Value.kind, Value.types, ← Ty.pointers_ne_nil_iff]
  | map key value entries =>
    simp [offences, Value.kind, Value.types, ← Ty.pointers_ne_nil_iff, imp_iff_not_or]
  | _ => simp [offences, Value.kind, Value.types]

/-- Whatever offends in TypeScript does so in Go. -/
theorem TypeScript.offences_of_go {receiver : Option String} {value : Value}
    (h : Go.offences receiver value = []) : offences value = [] := by
  cases value with
  | map key value entries => exact h
  | _ => rfl

/-! ### Reports -/

/-- The outcome is a fault exactly if there are offences, and then names the first of them. -/
def Reports {α : Type} (target : String) (offences : List Construct) (outcome : Except Fault α) :
    Prop :=
  match offences with
  | [] => ∃ a, outcome = .ok a
  | first :: _ => outcome = .error (.unsupported target first)

namespace Reports

variable {σ α β : Type} {target : String} {found further : List Construct}

theorem pure (a : α) : Reports target [] (Pure.pure a : Except Fault α) :=
  ⟨a, rfl⟩

theorem bind {outcome : Except Fault α} {next : α → Except Fault β}
    (h : Reports target found outcome) (hnext : ∀ a, Reports target further (next a)) :
    Reports target (found ++ further) (outcome >>= next) := by
  cases found with
  | nil =>
    obtain ⟨a, rfl⟩ := h
    exact hnext a
  | cons first rest =>
    obtain rfl : outcome = _ := h
    exact rfl

/-- What is done with the result alone does not matter. -/
theorem map {outcome : Except Fault α} (h : Reports target found outcome) (f : α → β) :
    Reports target found (outcome >>= fun a => Pure.pure (f a)) := by
  have houtcome := h.bind fun a => pure (f a)
  rwa [List.append_nil] at houtcome

theorem bind_step {first : Step σ α} {next : α → Step σ β} {s : σ}
    (h : Reports target found (Step.result (first s)))
    (hnext : ∀ a s', Reports target further (Step.result (next a s'))) :
    Reports target (found ++ further) (Step.result ((first >>= next) s)) := by
  cases hfirst : first s with
  | ok a between =>
    rw [hfirst] at h
    rw [Step.bind_of_ok hfirst]
    exact h.bind fun a => hnext a between
  | error fault between =>
    rw [hfirst] at h
    rw [Step.bind_of_error hfirst]
    exact h.bind fun a => hnext a between

theorem map_step {step : Step σ α} {s : σ} (h : Reports target found (Step.result (step s)))
    (f : α → β) :
    Reports target found (Step.result ((step >>= fun a => Pure.pure (f a)) s)) := by
  rw [← List.append_nil found]
  exact h.bind_step fun a _ => pure (f a)

variable {outcome : Except Fault α} {fault : Fault}

theorem eq_error_iff (h : Reports target found outcome) : outcome = .error fault ↔
    ∃ construct, found.head? = some construct ∧ fault = .unsupported target construct := by
  cases found with
  | nil =>
    obtain ⟨a, rfl⟩ := h
    simp
  | cons first rest =>
    obtain rfl : outcome = _ := h
    simp [eq_comm]

theorem fails_iff (h : Reports target found outcome) :
    (∃ fault, outcome = .error fault) ↔ found ≠ [] := by
  cases found with
  | nil =>
    obtain ⟨a, rfl⟩ := h
    simp
  | cons first rest => exact iff_of_true ⟨_, h⟩ (List.cons_ne_nil _ _)

theorem succeeds_iff (h : Reports target found outcome) :
    (∃ a, outcome = .ok a) ↔ found = [] := by
  cases found with
  | nil => exact iff_of_true h rfl
  | cons first rest =>
    obtain rfl : outcome = _ := h
    simp

end Reports

/-! ### TypeScript -/

namespace TypeScript

theorem reports_typeText (ty : Ty) :
    Reports target (ty.pointers.map .pointerType) (typeText ty) := by
  induction ty with
  | primitive kind => exact .pure _
  | model name => exact .pure _
  | array element ih =>
    rw [typeText]
    exact ih.map _
  | map key value ihKey ihValue =>
    rw [typeText, Ty.pointers, List.map_append]
    exact ihKey.bind fun _ => ihValue.map _
  | pointer pointee => exact rfl

theorem reports_valueTexts {values : List Value}
    (h : ∀ value ∈ values, Reports target (value.offences offences) (valueText value)) :
    Reports target (values.flatMap (Value.offences offences)) (valueTexts values) := by
  induction values with
  | nil => exact .pure _
  | cons value rest ih =>
    have hrest := ih fun other hother => h other (List.mem_cons_of_mem _ hother)
    rw [valueTexts, List.flatMap_cons]
    exact (h value List.mem_cons_self).bind fun _ => hrest.map _

theorem reports_entryTexts {entries : List (Value × Value)}
    (h : ∀ value ∈ entries.flatMap fun entry => [entry.1, entry.2],
      Reports target (value.offences offences) (valueText value)) :
    Reports target ((entries.flatMap fun entry => [entry.1, entry.2]).flatMap
      (Value.offences offences)) (entryTexts entries) := by
  induction entries with
  | nil => exact .pure _
  | cons entry rest ih =>
    have hrest := ih fun other hother => h other (List.mem_append_right _ hother)
    rw [entryTexts]
    exact (h entry.1 (by simp)).bind fun _ => (h entry.2 (by simp)).bind fun _ => hrest.map _

/-- A value reports what offends in it first. -/
theorem reports_valueText (value : Value) :
    Reports target (value.offences offences) (valueText value) := by
  induction value using Value.induction_children with
  | step value ih =>
    rw [Value.offences_eq]
    cases value with
    | array element elements =>
      rw [valueText]
      exact (reports_valueTexts ih).map _
    | map key value entries =>
      rw [valueText]
      exact (reports_typeText (.map key value)).bind fun _ => (reports_entryTexts ih).map _
    | ownField field =>
      rw [valueText]
      exact (ih field (by simp [Value.children])).bind fun _ => .pure _
    | modelField model field =>
      rw [valueText]
      exact (ih field (by simp [Value.children])).bind fun _ => .pure _
    | arrayElement source index =>
      rw [valueText]
      refine (ih source (by simp [Value.children])).bind fun _ => ?_
      exact (ih index (by simp [Value.children])).bind fun _ => .pure _
    | mapElement source key =>
      rw [valueText]
      refine (ih source (by simp [Value.children])).bind fun _ => ?_
      exact (ih key (by simp [Value.children])).bind fun _ => .pure _
    | combined left op right =>
      rw [valueText]
      refine (ih left (by simp [Value.children])).bind fun _ => ?_
      exact (ih right (by simp [Value.children])).bind fun _ => .pure _
    | intToText inner =>
      rw [valueText]
      exact (ih inner (by simp [Value.children])).bind fun _ => .pure _
    | _ => exact .pure _

end TypeScript

/-! ### Go -/

namespace Go

theorem reports_typeText (ty : Ty) :
    Reports target (ty.pointers.map .pointerType) (typeText ty) := by
  induction ty with
  | primitive kind => exact .pure _
  | model name => exact .pure _
  | array element ih =>
    rw [typeText]
    exact ih.map _
  | map key value ihKey ihValue =>
    rw [typeText, Ty.pointers, List.map_append]
    exact ihKey.bind fun _ => ihValue.map _
  | pointer pointee => exact rfl

variable {receiver : Option String}

theorem reports_valueTexts {values : List Value}
    (h : ∀ value ∈ values, ∀ imports, Reports target (value.offences (offences receiver))
      (Step.result (valueText receiver value imports))) (imports : Imports) :
    Reports target (values.flatMap (Value.offences (offences receiver)))
      (Step.result (valueTexts receiver values imports)) := by
  induction values generalizing imports with
  | nil => exact .pure _
  | cons value rest ih =>
    have hrest := ih fun other hother => h other (List.mem_cons_of_mem _ hother)
    rw [valueTexts, List.flatMap_cons]
    exact (h value List.mem_cons_self imports).bind_step fun _ noted => (hrest noted).map_step _

theorem reports_entryTexts {entries : List (Value × Value)}
    (h : ∀ value ∈ entries.flatMap fun entry => [entry.1, entry.2], ∀ imports,
      Reports target (value.offences (offences receiver))
        (Step.result (valueText receiver value imports))) (imports : Imports) :
    Reports target
      ((entries.flatMap fun entry => [entry.1, entry.2]).flatMap (Value.offences (offences receiver)))
      (Step.result (entryTexts receiver entries imports)) := by
  induction entries generalizing imports with
  | nil => exact .pure _
  | cons entry rest ih =>
    have hrest := ih fun other hother => h other (List.mem_append_right _ hother)
    rw [entryTexts]
    refine (h entry.1 (by simp) imports).bind_step fun _ noted => ?_
    exact (h entry.2 (by simp) noted).bind_step fun _ noted => (hrest noted).map_step _

theorem reports_floatText (bits : UInt64) (imports : Imports) :
    Reports target [] (Step.result (floatText bits imports)) := by
  rw [floatText]
  cases Decimal.finiteText? bits <;> exact ⟨_, rfl⟩

/-- A value reports what offends in it first, whatever packages are noted. -/
theorem reports_valueText (receiver : Option String) (value : Value) (imports : Imports) :
    Reports target (value.offences (offences receiver))
      (Step.result (valueText receiver value imports)) := by
  induction value using Value.induction_children generalizing imports with
  | step value ih =>
    rw [Value.offences_eq]
    cases value with
    | float bits =>
      rw [valueText]
      exact reports_floatText bits imports
    | array element elements =>
      rw [valueText]
      have htype := reports_typeText (.array element)
      rw [← Step.result_ofExcept (typeText (.array element)) imports] at htype
      exact htype.bind_step fun _ noted => (reports_valueTexts ih noted).map_step _
    | map key value entries =>
      rw [valueText]
      have htype := reports_typeText (.map key value)
      rw [← Step.result_ofExcept (typeText (.map key value)) imports] at htype
      exact htype.bind_step fun _ noted => (reports_entryTexts ih noted).map_step _
    | ownField field =>
      cases receiver with
      | none => exact rfl
      | some name =>
        rw [valueText]
        exact (ih field (by simp [Value.children]) imports).bind_step fun _ _ => .pure _
    | modelField model field =>
      rw [valueText]
      exact (ih field (by simp [Value.children]) imports).bind_step fun _ _ => .pure _
    | arrayElement source index =>
      rw [valueText]
      refine (ih source (by simp [Value.children]) imports).bind_step fun _ noted => ?_
      exact (ih index (by simp [Value.children]) noted).bind_step fun _ _ => .pure _
    | mapElement source key =>
      rw [valueText]
      refine (ih source (by simp [Value.children]) imports).bind_step fun _ noted => ?_
      exact (ih key (by simp [Value.children]) noted).bind_step fun _ _ => .pure _
    | combined left op right =>
      rw [valueText]
      refine (ih left (by simp [Value.children]) imports).bind_step fun _ noted => ?_
      exact (ih right (by simp [Value.children]) noted).bind_step fun _ _ => .pure _
    | intToText inner =>
      rw [valueText, Step.bind_of_ok (show refer .strconv imports = .ok () _ from rfl)]
      exact (ih inner (by simp [Value.children]) _).bind_step fun _ _ => .pure _
    | _ => exact .pure _

end Go

/-- A value cannot be spelled in TypeScript exactly if it holds a map literal with a pointer in the
type of its keys or values, and in Go exactly if it holds an array or map literal with a pointer in
its types, or a member of the receiver where there is none. The fault names the first offence in
preorder. -/
theorem Value.fails_at_first_offence (value : Value) :
    (((∃ fault, TypeScript.valueText value = .error fault) ↔
        ∃ part, value.Holds part ∧ part.kind = .map ∧ ∃ ty ∈ part.types, ty.hasPointer = true) ∧
      ∀ fault, TypeScript.valueText value = .error fault ↔
        ∃ construct, (value.offences TypeScript.offences).head? = some construct ∧
          fault = .unsupported TypeScript.target construct) ∧
    ∀ receiver imports,
      ((∃ fault, Step.result (Go.valueText receiver value imports) = .error fault) ↔
        (∃ part, value.Holds part ∧ ∃ ty ∈ part.types, ty.hasPointer = true) ∨
          receiver = none ∧ ∃ part, value.Holds part ∧ part.kind = .ownField) ∧
      ∀ fault, Step.result (Go.valueText receiver value imports) = .error fault ↔
        ∃ construct, (value.offences (Go.offences receiver)).head? = some construct ∧
          fault = .unsupported Go.target construct := by
  refine ⟨⟨?_, fun fault => (TypeScript.reports_valueText value).eq_error_iff⟩, ?_⟩
  · rw [(TypeScript.reports_valueText value).fails_iff, offences_ne_nil_iff]
    simp only [TypeScript.offences_ne_nil_iff]
  · intro receiver imports
    have hreports := Go.reports_valueText receiver value imports
    refine ⟨?_, fun fault => hreports.eq_error_iff⟩
    rw [hreports.fails_iff, offences_ne_nil_iff]
    simp only [Go.offences_ne_nil_iff, and_or_left, exists_or, and_left_comm, exists_and_left]

end Polyglot
