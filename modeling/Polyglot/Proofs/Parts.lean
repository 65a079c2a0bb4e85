import Mathlib.Logic.Relation
import Polyglot.Value

/-! # Parts of values

A value holds itself and everything that its direct parts hold. Questions about what stands
anywhere in a value are answered part by part: a property that a value has by itself or through one
of its direct parts is one that something in the value has by itself. Dependence on a method is
such a property.
-/

namespace Polyglot.Value

open Relation

/-- The part is the value itself, or stands in it at some depth. -/
def Holds (value part : Value) : Prop :=
  ReflTransGen (fun outer inner => inner ∈ outer.children) value part

theorem sizeOf_lt_of_mem_children {value child : Value} (h : child ∈ value.children) :
    sizeOf child < sizeOf value := by
  cases value with
  | array element elements =>
    have hlt : sizeOf child < sizeOf elements := List.sizeOf_lt_of_mem h
    rw [array.sizeOf_spec]
    omega
  | map key value entries =>
    obtain ⟨entry, hentry, hchild⟩ := List.mem_flatMap.mp h
    have hlt := List.sizeOf_lt_of_mem hentry
    have hparts : sizeOf entry = 1 + sizeOf entry.1 + sizeOf entry.2 := rfl
    rw [map.sizeOf_spec]
    rcases List.mem_cons.mp hchild with rfl | hchild
    · omega
    · obtain rfl := List.mem_singleton.mp hchild
      omega
  | _ => simp [children] at h <;> grind

/-- What holds of a value whenever it holds of its direct parts holds of all values. -/
@[elab_as_elim]
theorem induction_children {motive : Value → Prop}
    (step : ∀ value, (∀ child ∈ value.children, motive child) → motive value) (value : Value) :
    motive value :=
  step value fun child hchild =>
    have := sizeOf_lt_of_mem_children hchild
    induction_children step child
termination_by sizeOf value

/-- A value holds itself and what its direct parts hold. -/
theorem holds_iff {value part : Value} :
    value.Holds part ↔ part = value ∨ ∃ child ∈ value.children, child.Holds part := by
  rw [Holds, ReflTransGen.cases_head_iff, eq_comm]
  rfl

/-- A property that a value has by itself or through one of its direct parts is one that something
in the value has by itself. -/
theorem iff_exists_holds {P own : Value → Prop}
    (h : ∀ value, P value ↔ own value ∨ ∃ child ∈ value.children, P child) (value : Value) :
    P value ↔ ∃ part, value.Holds part ∧ own part := by
  induction value using induction_children with
  | step value ih =>
    rw [h]
    constructor
    · rintro (hown | ⟨child, hchild, hP⟩)
      · exact ⟨value, .refl, hown⟩
      · obtain ⟨part, hholds, hown⟩ := (ih child hchild).mp hP
        exact ⟨part, .head hchild hholds, hown⟩
    · rintro ⟨part, hholds, hown⟩
      rcases holds_iff.mp hholds with rfl | ⟨child, hchild, hholds⟩
      · exact .inl hown
      · exact .inr ⟨child, hchild, (ih child hchild).mpr ⟨part, hholds, hown⟩⟩

/-! ### Preorder -/

/-- The value and everything in it: each part before its own parts, and these in the order in which
they are spelled. -/
def preorder (value : Value) : List Value :=
  value :: value.children.attach.flatMap fun child =>
    have := sizeOf_lt_of_mem_children child.2
    child.1.preorder
termination_by sizeOf value

theorem preorder_eq (value : Value) :
    value.preorder = value :: value.children.flatMap preorder := by
  rw [preorder]
  simp

/-- The preorder lists what the value holds. -/
theorem mem_preorder {value part : Value} : part ∈ value.preorder ↔ value.Holds part := by
  induction value using induction_children with
  | step value ih =>
    rw [preorder_eq, List.mem_cons, List.mem_flatMap, holds_iff]
    refine or_congr_right (exists_congr fun child => ?_)
    exact and_congr_right fun hchild => ih child hchild

/-! ### Dependence on a method -/

theorem anyMethodDependent_eq (values : List Value) :
    anyMethodDependent values = values.any isMethodDependent := by
  induction values with
  | nil => rfl
  | cons value rest ih => rw [anyMethodDependent, ih, List.any_cons]

theorem anyEntryMethodDependent_eq (entries : List (Value × Value)) :
    anyEntryMethodDependent entries =
      (entries.flatMap fun entry => [entry.1, entry.2]).any isMethodDependent := by
  induction entries with
  | nil => rfl
  | cons entry rest ih =>
    rw [anyEntryMethodDependent, ih, List.flatMap_cons, List.any_append]
    simp [Bool.or_assoc]

/-- A value depends on a method if it is a reference or one of its direct parts depends on one. -/
theorem isMethodDependent_eq (value : Value) : value.isMethodDependent =
    (value.kind.isReference || value.children.any isMethodDependent) := by
  cases value with
  | array element elements => exact anyMethodDependent_eq elements
  | map key value entries => exact anyEntryMethodDependent_eq entries
  | _ => simp [isMethodDependent, kind, Kind.isReference, children]

/-- A value depends on a method exactly if it holds a reference. -/
theorem isMethodDependent_iff (value : Value) : value.isMethodDependent = true ↔
    ∃ part, value.Holds part ∧ part.kind.isReference = true := by
  refine iff_exists_holds (P := fun value => value.isMethodDependent = true) ?_ value
  intro value
  rw [isMethodDependent_eq value, Bool.or_eq_true, List.any_eq_true]

end Polyglot.Value
