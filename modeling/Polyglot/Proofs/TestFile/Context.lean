import Polyglot.Proofs.TestFile.Acceptance

/-! # Values without a context

A value that refers to nothing is spelled in Go without a look at the receiver: its text or fault
and the packages it notes are the same with every receiver and without any. The literals of a valid
suite are of this kind, so that no test file ever misses a receiver, whatever was added to it
before.
-/

namespace Polyglot

theorem Value.ContextFree.child {value child : Value} (h : value.ContextFree)
    (hchild : child ∈ value.children) : child.ContextFree := by
  intro part hholds
  exact h part (.head hchild hholds)

namespace Go

variable {first second receiver : Option String}

/-! ### Spelling -/

theorem valueTexts_congr {values : List Value}
    (h : ∀ value ∈ values, valueText first value = valueText second value) :
    valueTexts first values = valueTexts second values := by
  induction values with
  | nil => rfl
  | cons value rest ih =>
    have hrest := ih fun other hother => h other (List.mem_cons_of_mem _ hother)
    rw [valueTexts, valueTexts, h value List.mem_cons_self, hrest]

theorem entryTexts_congr {entries : List (Value × Value)}
    (h : ∀ value ∈ entries.flatMap fun entry => [entry.1, entry.2],
      valueText first value = valueText second value) :
    entryTexts first entries = entryTexts second entries := by
  induction entries with
  | nil => rfl
  | cons entry rest ih =>
    have hrest := ih fun other hother => h other (List.mem_append_right _ hother)
    rw [entryTexts, entryTexts, h entry.1 (by simp), h entry.2 (by simp), hrest]

/-- Without references, the receiver does not matter. -/
theorem valueText_eq_of_contextFree {value : Value} (h : value.ContextFree)
    (first second : Option String) : valueText first value = valueText second value := by
  induction value using Value.induction_children with
  | step value ih =>
    replace ih := fun child hchild => ih child hchild (h.child hchild)
    have hkind := h value .refl
    cases value with
    | array element elements =>
      have helements : ∀ child ∈ elements, valueText first child = valueText second child := ih
      rw [valueText, valueText, valueTexts_congr helements]
    | map key value entries =>
      have hentries : entryTexts first entries = entryTexts second entries := entryTexts_congr ih
      rw [valueText, valueText, hentries]
    | combined left op right =>
      rw [valueText, valueText, ih left (by simp [Value.children]),
        ih right (by simp [Value.children])]
    | intToText inner => rw [valueText, valueText, ih inner (by simp [Value.children])]
    | null | text | int | float | bool => rfl
    | _ => simp [Value.kind] at hkind

/-! ### Receivers that are missing -/

theorem kind_of_looseReceiverField_mem {part : Value}
    (h : .looseReceiverField ∈ offences receiver part) : part.kind = .ownField := by
  cases part with
  | ownField field => rfl
  | _ => simp [offences] at h

theorem looseReceiverField_not_mem_offences {value : Value} (h : value.ContextFree) :
    .looseReceiverField ∉ value.offences (offences receiver) := by
  intro hmem
  obtain ⟨part, hpart, hown⟩ := List.mem_flatMap.mp hmem
  have hkind := h part (Value.mem_preorder.mp hpart)
  rw [kind_of_looseReceiverField_mem hown] at hkind
  simp at hkind

/-- The fault of a value without references is not that a receiver is missing. -/
theorem valueText_ne_looseReceiverField {value : Value} (h : value.ContextFree)
    (imports noted : Imports) :
    valueText receiver value imports ≠ .error (.unsupported target .looseReceiverField) noted := by
  intro hrun
  obtain ⟨_, hhead, hfault⟩ := (reports_valueText receiver value imports).eq_error_iff.mp
    (congrArg Step.result hrun)
  cases hfault
  exact looseReceiverField_not_mem_offences h (List.mem_of_mem_head? hhead)

end Go

namespace Testify

variable {procedure : Procedure}

/-- Nor is this the fault of a procedure whose literals have no references. -/
theorem addProcedure_ne_looseReceiverField
    (h : ∀ value ∈ literals procedure, value.ContextFree) (file file' : File) :
    addProcedure procedure file ≠
      .error (.unsupported Go.target .looseReceiverField) file' := by
  intro hrun
  by_cases htaken : functionOf procedure ∈ file.functions
  · rw [addProcedure_of_taken htaken] at hrun
    cases hrun
  · obtain ⟨_, hhead, hfault⟩ := (reports_addProcedure htaken).eq_error_iff.mp
      (congrArg Step.result hrun)
    cases hfault
    obtain ⟨value, hvalue, hmem⟩ := List.mem_flatMap.mp (List.mem_of_mem_head? hhead)
    exact Go.looseReceiverField_not_mem_offences (h value hvalue) hmem

/-- A fault of many procedures is the fault of one of them. -/
theorem exists_of_procedures_error {procedures : List Procedure} {file file' : File}
    {fault : Fault} (h : TestTarget.procedures procedures file = .error fault file') :
    ∃ procedure ∈ procedures, ∃ between, addProcedure procedure between = .error fault file' := by
  induction procedures generalizing file with
  | nil => cases h
  | cons procedure rest ih =>
    rw [TestTarget.procedures] at h
    rcases Step.bind_eq_error_iff.mp h with hfirst | ⟨_, between, -, hrest⟩
    · exact ⟨procedure, List.mem_cons_self, file, hfirst⟩
    · obtain ⟨other, hother, hstop⟩ := ih hrest
      exact ⟨other, List.mem_cons_of_mem _ hother, hstop⟩

end Testify

theorem Suite.contextFree_of_mem {suite : Suite} (h : suite.Valid) {procedure : Procedure}
    (hprocedure : procedure ∈ suite.allProcedures) :
    ∀ value ∈ Testify.literals procedure, value.ContextFree := by
  obtain ⟨case, hcase, fact, hfact, rfl⟩ := mem_allProcedures.mp hprocedure
  intro value hvalue
  exact h.literals case hcase fact hfact value (Fact.mem_literals.mp hvalue)

/-- A value that depends on no method is spelled alike with all receivers and without any, text,
fault and packages included. So neither a literal of a valid suite nor a test made of it, in a file
that holds anything else, nor the suite as a whole fails because a receiver is missing. -/
theorem Go.spelled_without_context :
    (∀ value : Value, value.isMethodDependent = false →
      ∀ (first second : Option String) (imports : Imports),
        Go.valueText first value imports = Go.valueText second value imports) ∧
    ∀ suite : Suite, suite.check = .ok () →
      (∀ case ∈ suite.cases, ∀ fact ∈ case.facts, ∀ value ∈ fact.literals, ∀ imports noted,
        Go.valueText none value imports ≠
          .error (.unsupported Go.target .looseReceiverField) noted) ∧
      (∀ procedure ∈ suite.allProcedures, ∀ file file',
        Testify.addProcedure procedure file ≠
          .error (.unsupported Go.target .looseReceiverField) file') ∧
      ∀ file file' : Testify.File,
        suite.compileTests file ≠ .error (.unsupported Go.target .looseReceiverField) file' := by
  refine ⟨?_, ?_⟩
  · intro value h first second imports
    rw [valueText_eq_of_contextFree (Value.contextFree_iff.mpr h) first second]
  · intro suite hcheck
    have hvalid := Suite.check_eq_ok_iff.mp hcheck
    have hprocedure : ∀ procedure ∈ suite.allProcedures, ∀ file file',
        Testify.addProcedure procedure file ≠
          .error (.unsupported Go.target .looseReceiverField) file' :=
      fun procedure hmem =>
        Testify.addProcedure_ne_looseReceiverField (Suite.contextFree_of_mem hvalid hmem)
    refine ⟨?_, hprocedure, ?_⟩
    · intro case hcase fact hfact value hvalue
      exact valueText_ne_looseReceiverField
        (hvalid.literals case hcase fact hfact value (Fact.mem_literals.mp hvalue))
    · intro file file' hrun
      rw [Suite.compileTests_of_valid hvalid] at hrun
      obtain ⟨procedure, hmem, between, hstop⟩ := Testify.exists_of_procedures_error hrun
      exact hprocedure procedure hmem between file' hstop

/-- A suite with a map whose keys are calls and whose types cannot be spelled. -/
def Suite.pointed : Suite where
  cases := [{ name := "Tally"
              parameters := [⟨"prices", .map (.primitive .string) (.model "Price")⟩]
              facts := [{ name := "Once"
                          inputs := [.map (.primitive .string) (.pointer (.model "Price"))
                            [(.intToText (.int 1), .array (.model "Price") [.float 0])]] }] }]

theorem Go.spelled_without_context_pointed :
    (∀ value ∈ Suite.pointed.cases.flatMap fun case => case.facts.flatMap Fact.literals,
      value.isMethodDependent = false ∧
        Go.valueText none value (({} : Imports).insert ⟨"fmt"⟩) =
          Go.valueText (some "t") value (({} : Imports).insert ⟨"fmt"⟩)) ∧
    Suite.pointed.check = .ok () ∧
    ∀ file', Suite.pointed.compileTests ({ package := "till" } : Testify.File) ≠
      .error (.unsupported Go.target .looseReceiverField) file' := by
  have hcheck : Suite.pointed.check = .ok () := rfl
  refine ⟨?_, hcheck, fun file' => (spelled_without_context.2 _ hcheck).2.2 _ file'⟩
  intro value hvalue
  have hfree : value.isMethodDependent = false := by
    revert value
    decide
  exact ⟨hfree, spelled_without_context.1 value hfree none (some "t") _⟩

end Polyglot
