import Mathlib.Data.List.Nodup
import Polyglot.Proofs.Parts
import Polyglot.Proofs.Step
import Polyglot.TestFile.Testify

/-! # Valid suites

The rules for suites, said of a suite as a whole. The check goes through cases and facts once and
stops at the first defect; it passes exactly the suites that keep all rules. A suite that passes is
planned in full. One that does not is refused in the same way by everything that compiles it, before
anything is written.
-/

namespace Polyglot

/-- The value is an input, the output or the expectation of a side effect. -/
def Fact.Mentions (fact : Fact) (value : Value) : Prop :=
  value ∈ fact.inputs ∨ fact.output = some value ∨
    ∃ effect ∈ fact.sideEffects, effect.expected = value

/-- Nothing that stands in the value refers to a binding or to a member. -/
def Value.ContextFree (value : Value) : Prop :=
  ∀ part, value.Holds part →
    part.kind ∉ [Kind.binding, .ownField, .modelField, .arrayElement, .mapElement]

/-- The rules for suites. -/
structure Suite.Valid (suite : Suite) : Prop where
  cases_nodup : (suite.cases.map Case.name).Nodup
  facts_nodup : ∀ case ∈ suite.cases, (case.facts.map Fact.name).Nodup
  procedures_nodup :
    (suite.cases.flatMap fun case => case.facts.map fun fact => case.name ++ fact.name).Nodup
  inputs : ∀ case ∈ suite.cases, ∀ fact ∈ case.facts, fact.inputs.length = case.parameters.length
  outputs : ∀ case ∈ suite.cases, case.returns = none → ∀ fact ∈ case.facts, fact.output = none
  literals : ∀ case ∈ suite.cases, ∀ fact ∈ case.facts, ∀ value, fact.Mentions value →
    value.ContextFree

/-! ### Checks that stop -/

section
variable {ε α : Type}

/-- A check that stops if a condition holds, and goes on otherwise. -/
theorem refuse_bind_eq_ok_iff {condition : Prop} [Decidable condition] {defect : ε}
    {next : Unit → Except ε α} {a : α} :
    (if condition then (throw defect : Except ε Unit) >>= next else next ()) = .ok a ↔
      ¬ condition ∧ next () = .ok a := by
  by_cases h : condition
  · rw [if_pos h]
    constructor
    · rintro ⟨⟩
    · rintro ⟨hnot, _⟩
      exact absurd h hnot
  · rw [if_neg h]
    exact (and_iff_right h).symm

theorem pass_bind_eq_ok_iff {check : Except ε Unit} {next : Unit → Except ε α} {a : α} :
    (check >>= next) = .ok a ↔ check = .ok () ∧ next () = .ok a := by
  rw [Step.outcome_bind_eq_ok_iff]
  exact ⟨fun ⟨_, hcheck, hnext⟩ => ⟨hcheck, hnext⟩, fun ⟨hcheck, hnext⟩ => ⟨(), hcheck, hnext⟩⟩

end

/-! ### Facts -/

theorem Fact.mem_literals {fact : Fact} {value : Value} :
    value ∈ fact.literals ↔ fact.Mentions value := by
  simp [literals, Mentions]

theorem Value.contextFree_iff {value : Value} :
    value.ContextFree ↔ value.isMethodDependent = false := by
  rw [← Bool.not_eq_true, isMethodDependent_iff]
  constructor
  · rintro h ⟨part, hholds, hreference⟩
    apply h part hholds
    revert hreference
    cases part.kind <;> simp [Kind.isReference]
  · intro h part hholds hmem
    refine h ⟨part, hholds, ?_⟩
    revert hmem
    cases part.kind <;> simp [Kind.isReference]

namespace Case

variable {case : Case}

/-- The rules for a fact about a case. -/
def Fits (case : Case) (fact : Fact) : Prop :=
  fact.inputs.length = case.parameters.length ∧ (case.returns = none → fact.output = none) ∧
    ∀ value, fact.Mentions value → value.ContextFree

theorem checkFact_eq_ok_iff {fact : Fact} : case.checkFact fact = .ok () ↔ case.Fits fact := by
  have hliterals : (¬ fact.literals.any Value.isMethodDependent = true) ↔
      ∀ value, fact.Mentions value → value.ContextFree := by
    simp [Fact.mem_literals, Value.contextFree_iff]
  have houtput : ¬ (fact.output.isSome = true ∧ case.returns.isNone = true) ↔
      (case.returns = none → fact.output = none) := by
    cases fact.output <;> cases case.returns <;> simp
  rw [checkFact, refuse_bind_eq_ok_iff, refuse_bind_eq_ok_iff, not_not, houtput, Fits, ← hliterals]
  by_cases h : fact.literals.any Value.isMethodDependent = true
  · simp [h, throw, throwThe, MonadExceptOf.throw]
  · simp [h, pure, Except.pure]

theorem checkFacts_eq_ok_iff {seen : List String} {facts : List Fact} :
    case.checkFacts seen facts = .ok () ↔ (facts.map Fact.name).Nodup ∧
      ∀ fact ∈ facts, fact.name ∉ seen ∧ case.Fits fact := by
  induction facts generalizing seen with
  | nil => simp [checkFacts, pure, Except.pure]
  | cons fact rest ih =>
    rw [checkFacts, refuse_bind_eq_ok_iff, pass_bind_eq_ok_iff]
    simp only [checkFact_eq_ok_iff, ih, List.map_cons, List.nodup_cons,
      List.mem_map, not_exists, not_and, List.mem_cons, not_or, forall_eq_or_imp]
    constructor
    · rintro ⟨hnew, hfits, hnodup, hrest⟩
      refine ⟨⟨?_, hnodup⟩, ⟨hnew, hfits⟩, ?_⟩
      · intro other hother heq
        exact (hrest other hother).1.1 heq
      · intro other hother
        exact ⟨(hrest other hother).1.2, (hrest other hother).2⟩
    · rintro ⟨⟨hapart, hnodup⟩, ⟨hnew, hfits⟩, hrest⟩
      refine ⟨hnew, hfits, hnodup, ?_⟩
      intro other hother
      exact ⟨⟨hapart other hother, (hrest other hother).1⟩, (hrest other hother).2⟩

theorem check_eq_ok_iff : case.check = .ok () ↔ (case.facts.map Fact.name).Nodup ∧
    ∀ fact ∈ case.facts, case.Fits fact := by
  rw [check, checkFacts_eq_ok_iff]
  simp

end Case

/-! ### Suites -/

namespace Suite

theorem addProcedures_eq_ok_iff {seen seen' names : List String} :
    addProcedures seen names = .ok seen' ↔
      names.Nodup ∧ (∀ name ∈ names, name ∉ seen) ∧ seen' = names.reverse ++ seen := by
  induction names generalizing seen with
  | nil => simp [addProcedures, pure, Except.pure, eq_comm]
  | cons name rest ih =>
    rw [addProcedures, refuse_bind_eq_ok_iff, ih, List.nodup_cons, List.reverse_cons,
      List.append_assoc, List.singleton_append]
    simp only [List.mem_cons, not_or, forall_eq_or_imp]
    constructor
    · rintro ⟨hnew, hnodup, hrest, rfl⟩
      exact ⟨⟨fun hmem => (hrest name hmem).1 rfl, hnodup⟩,
        ⟨hnew, fun other hother => (hrest other hother).2⟩, rfl⟩
    · rintro ⟨⟨hapart, hnodup⟩, ⟨hnew, hrest⟩, rfl⟩
      refine ⟨hnew, hnodup, ?_, rfl⟩
      rintro other hother
      exact ⟨fun heq => hapart (heq ▸ hother), hrest other hother⟩

/-- The names of the procedures of cases, in order. -/
def procedureNames (cases : List Case) : List String :=
  cases.flatMap fun case => case.facts.map fun fact => case.name ++ fact.name

/-- The check of cases, given the names of earlier cases and procedures. -/
theorem checkCases_eq_ok_iff {earlier procedures : List String} {cases : List Case} :
    checkCases earlier procedures cases = .ok () ↔
      (cases.map Case.name).Nodup ∧ (∀ case ∈ cases, case.name ∉ earlier) ∧
      (∀ case ∈ cases, case.check = .ok ()) ∧ (procedureNames cases).Nodup ∧
      ∀ name ∈ procedureNames cases, name ∉ procedures := by
  induction cases generalizing earlier procedures with
  | nil => simp [checkCases, procedureNames, pure, Except.pure]
  | cons case rest ih =>
    have hnames : case.procedures.map Procedure.name =
        case.facts.map fun fact => case.name ++ fact.name := by
      simp [Case.procedures, Case.procedure, Case.procedureName, Function.comp_def]
    have hsplit : procedureNames (case :: rest) =
        case.procedures.map Procedure.name ++ procedureNames rest := by
      rw [procedureNames, List.flatMap_cons, hnames]
      rfl
    rw [checkCases, refuse_bind_eq_ok_iff, pass_bind_eq_ok_iff, hsplit, List.nodup_append]
    simp only [Step.outcome_bind_eq_ok_iff, addProcedures_eq_ok_iff, ih, List.map_cons,
      List.nodup_cons, List.mem_cons, not_or, forall_eq_or_imp, List.mem_append]
    constructor
    · rintro ⟨hnew, hcheck, _, ⟨hown, hold, rfl⟩, hnodup, hcases, hchecks, hrest, hlater⟩
      refine ⟨⟨?_, hnodup⟩, ⟨hnew, fun other hother => (hcases other hother).2⟩,
        ⟨hcheck, hchecks⟩, ⟨hown, hrest, ?_⟩, ?_⟩
      · intro hmem
        obtain ⟨other, hother, heq⟩ := List.mem_map.mp hmem
        exact (hcases other hother).1 heq
      · rintro name hname other hother rfl
        exact hlater name hother (List.mem_append_left _ (List.mem_reverse.mpr hname))
      · rintro name (hname | hname)
        · exact hold name hname
        · intro hmem
          exact hlater name hname (List.mem_append_right _ hmem)
    · rintro ⟨⟨hapart, hnodup⟩, ⟨hnew, hcases⟩, ⟨hcheck, hchecks⟩, ⟨hown, hrest, hdisjoint⟩, hold⟩
      refine ⟨hnew, hcheck, _, ⟨hown, fun name hname => hold name (.inl hname), rfl⟩, hnodup, ?_,
        hchecks, hrest, ?_⟩
      · intro other hother
        exact ⟨fun heq => hapart (heq ▸ List.mem_map_of_mem hother), hcases other hother⟩
      · intro name hname hmem
        rcases List.mem_append.mp hmem with hmem | hmem
        · exact hdisjoint name (List.mem_reverse.mp hmem) name hname rfl
        · exact hold name (.inr hname) hmem

/-- The check passes the suites that keep all rules. -/
theorem check_eq_ok_iff {suite : Suite} : suite.check = .ok () ↔ suite.Valid := by
  rw [check, checkCases_eq_ok_iff]
  simp only [Case.check_eq_ok_iff, List.not_mem_nil, not_false_eq_true, implies_true, true_and,
    and_true]
  constructor
  · rintro ⟨hcases, hchecks, hprocedures⟩
    exact
      { cases_nodup := hcases
        facts_nodup := fun case hcase => (hchecks case hcase).1
        procedures_nodup := hprocedures
        inputs := fun case hcase fact hfact => ((hchecks case hcase).2 fact hfact).1
        outputs := fun case hcase hvoid fact hfact => ((hchecks case hcase).2 fact hfact).2.1 hvoid
        literals := fun case hcase fact hfact => ((hchecks case hcase).2 fact hfact).2.2 }
  · intro h
    refine ⟨h.cases_nodup, ?_, h.procedures_nodup⟩
    intro case hcase
    refine ⟨h.facts_nodup case hcase, ?_⟩
    intro fact hfact
    exact ⟨h.inputs case hcase fact hfact, fun hvoid => h.outputs case hcase hvoid fact hfact,
      h.literals case hcase fact hfact⟩

/-- The procedure of every fact, in the order of cases and facts. -/
def allProcedures (suite : Suite) : List Procedure :=
  suite.cases.flatMap fun case => case.facts.map fun fact =>
    { name := case.name ++ fact.name
      method := case.name
      inputs := fact.inputs
      output := fact.output
      sideEffects := fact.sideEffects }

theorem plan_of_check {suite : Suite} (h : suite.check = .ok ()) :
    suite.plan = .ok suite.allProcedures := by
  rw [plan, h]
  rfl

theorem length_allProcedures (suite : Suite) : suite.allProcedures.length = suite.factCount := by
  simp [allProcedures, factCount, List.length_flatMap]

theorem map_name_allProcedures (suite : Suite) :
    suite.allProcedures.map Procedure.name = procedureNames suite.cases := by
  simp [allProcedures, procedureNames, List.map_flatMap, Function.comp_def]

section
variable {suite : Suite} {defect : SuiteDefect} (h : suite.check = .error defect)
include h

theorem plan_of_defect : suite.plan = .error defect := by
  rw [plan, h]
  rfl

theorem compileTests_of_defect {σ : Type} [TestTarget σ] (file : σ) :
    suite.compileTests file = .error (.invalidSuite defect) file := by
  rw [compileTests, plan_of_defect h]
  rfl

theorem compileProgram_of_defect {σ : Type} [Target σ] (fields : List Field) (target : σ) :
    suite.compileProgram fields target = .error (.invalidSuite defect) target := by
  rw [compileProgram, h]
  rfl

end

/-- The check passes exactly the suites that keep the rules. Each of them is planned with one
procedure for every fact; any other is refused with one and the same defect by whatever compiles it,
and leaves no trace. -/
theorem valid_or_refused (suite : Suite) :
    (suite.check = .ok () ↔ suite.Valid) ∧
    (suite.Valid → suite.plan = .ok suite.allProcedures ∧
      suite.allProcedures.length = suite.factCount ∧
      (suite.allProcedures.map Procedure.name).Nodup) ∧
    (¬ suite.Valid → ∃ defect, SuiteDefect.lift suite.check = .error (.invalidSuite defect) ∧
      SuiteDefect.lift suite.plan = .error (.invalidSuite defect) ∧
      (∀ (σ : Type) [TestTarget σ] (file : σ),
        suite.compileTests file = .error (.invalidSuite defect) file) ∧
      ∀ (σ : Type) [Target σ] (fields : List Field) (target : σ),
        suite.compileProgram fields target = .error (.invalidSuite defect) target) := by
  refine ⟨check_eq_ok_iff, ?_, ?_⟩
  · intro hvalid
    refine ⟨plan_of_check (check_eq_ok_iff.mpr hvalid), length_allProcedures suite, ?_⟩
    rw [map_name_allProcedures]
    exact hvalid.procedures_nodup
  · intro hinvalid
    cases hcheck : suite.check with
    | ok passed => exact absurd (check_eq_ok_iff.mp hcheck) hinvalid
    | error defect =>
      rw [plan_of_defect hcheck]
      exact ⟨defect, rfl, rfl, fun σ _ file => compileTests_of_defect hcheck file,
        fun σ _ fields target => compileProgram_of_defect hcheck fields target⟩

/-- Two cases whose facts have different names, but lead to procedures of the same name. -/
def colliding : Suite where
  cases := [{ name := "Add", facts := [{ name := "Twice" }, { name := "TwiceMore" }] },
    { name := "AddTwice", facts := [{ name := "Again" }, { name := "More" }] }]

/-- The same cases without the fact that causes the collision. -/
def apart : Suite where
  cases := [{ name := "Add", facts := [{ name := "Twice" }, { name := "TwiceMore" }] },
    { name := "AddTwice", facts := [{ name := "Again" }] }]

theorem valid_or_refused_colliding :
    apart.Valid ∧ apart.plan = .ok apart.allProcedures ∧
      apart.allProcedures.map Procedure.name = ["AddTwice", "AddTwiceMore", "AddTwiceAgain"] ∧
      ¬ colliding.Valid ∧
      colliding.compileTests ({ package := "till" } : Testify.File) =
        .error (.invalidSuite (.repeatedProcedure "AddTwiceMore")) { package := "till" } := by
  have hapart : apart.Valid := (valid_or_refused apart).1.mp rfl
  have hcheck : colliding.check = .error (.repeatedProcedure "AddTwiceMore") := rfl
  have hcolliding : ¬ colliding.Valid := by
    intro hvalid
    rw [(valid_or_refused colliding).1.mpr hvalid] at hcheck
    exact absurd hcheck (by simp)
  refine ⟨hapart, ((valid_or_refused apart).2.1 hapart).1, rfl, hcolliding, ?_⟩
  obtain ⟨defect, hlift, _, htests, _⟩ := (valid_or_refused colliding).2.2 hcolliding
  rw [hcheck] at hlift
  cases hlift
  exact htests Testify.File _

end Suite

end Polyglot
