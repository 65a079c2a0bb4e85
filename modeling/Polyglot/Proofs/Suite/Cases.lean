import Polyglot.Proofs.Suite.Validity

/-! # Suites, case by case

A test file can be compiled from a whole suite, which is checked and planned before anything is
written, or by adding one case after the other, each with a check and a plan of its own. For a valid
suite both make the same calls in the same order, and so they end alike from every state of a file,
also where the file refuses a procedure in the middle of a case.
-/

namespace Polyglot

variable {σ : Type}

/-- Steps for items in order stop at the first item whose step does. -/
theorem Step.forM_eq_error_iff {α : Type} {step : α → Step σ Unit} {items : List α} {s s' : σ}
    {fault : Fault} : (forM items step : Step σ Unit) s = .error fault s' ↔
      ∃ before item after between, items = before ++ item :: after ∧
        (forM before step : Step σ Unit) s = .ok () between ∧
        step item between = .error fault s' := by
  constructor
  · intro h
    induction items generalizing s with
    | nil => cases h
    | cons item rest ih =>
      rw [List.forM_cons] at h
      rcases bind_eq_error_iff.mp h with hfirst | ⟨_, middle, hfirst, hrest⟩
      · exact ⟨[], item, rest, s, rfl, rfl, hfirst⟩
      · obtain ⟨before, other, after, between, rfl, hbefore, hstop⟩ := ih hrest
        refine ⟨item :: before, other, after, between, rfl, ?_, hstop⟩
        rw [List.forM_cons, bind_of_ok hfirst, hbefore]
  · rintro ⟨before, item, after, between, rfl, hbefore, hstop⟩
    rw [List.forM_append, bind_of_ok hbefore, List.forM_cons, bind_of_error hstop]

variable [TestTarget σ]

/-- Procedures added at once are added one part after the other. -/
theorem TestTarget.procedures_append (first second : List Procedure) :
    (procedures (first ++ second) : Step σ Unit) =
      procedures first >>= fun _ => procedures second := by
  induction first with
  | nil => rfl
  | cons procedure rest ih =>
    rw [List.cons_append, procedures, procedures, ih, bind_assoc]

namespace Case

variable {case : Case} {cases : List Case}

theorem plan_of_check (h : case.check = .ok ()) : case.plan = .ok case.procedures := by
  rw [plan, h]
  rfl

theorem test_of_check (h : case.check = .ok ()) :
    (case.test : Step σ Unit) = TestTarget.procedures case.procedures := by
  rw [test, plan_of_check h]
  rfl

/-- Cases that pass their checks have a plan each. -/
theorem mapM_plan (h : ∀ case ∈ cases, case.check = .ok ()) :
    cases.mapM plan = .ok (cases.map procedures) := by
  induction cases with
  | nil => rfl
  | cons case rest ih =>
    have hrest := ih fun other hother => h other (List.mem_cons_of_mem _ hother)
    rw [List.mapM_cons, plan_of_check (h case List.mem_cons_self), hrest]
    rfl

/-- Cases that pass their checks, added one after the other, add all their procedures. -/
theorem forM_test (h : ∀ case ∈ cases, case.check = .ok ()) :
    (forM cases test : Step σ Unit) = TestTarget.procedures (cases.flatMap procedures) := by
  induction cases with
  | nil => rfl
  | cons case rest ih =>
    have hrest := ih fun other hother => h other (List.mem_cons_of_mem _ hother)
    rw [List.forM_cons, test_of_check (h case List.mem_cons_self), hrest, List.flatMap_cons,
      TestTarget.procedures_append]

end Case

namespace Suite

variable {suite : Suite}

theorem check_of_mem (h : suite.check = .ok ()) : ∀ case ∈ suite.cases, case.check = .ok () :=
  (checkCases_eq_ok_iff.mp h).2.2.1

/-- A valid suite is planned case by case, and from every state of any test file, compiling it and
adding its cases in order give the same result and leave the same file. Where that is a fault, it is
the fault of the first case that cannot be added after those before it. -/
theorem compiled_case_by_case (h : suite.check = .ok ()) :
    (∃ plans, suite.cases.mapM Case.plan = .ok plans ∧ suite.plan = .ok plans.flatten) ∧
    ∀ (σ : Type) [TestTarget σ] (file : σ),
      suite.compileTests file = (forM suite.cases Case.test : Step σ Unit) file ∧
      ∀ fault file', suite.compileTests file = .error fault file' ↔
        ∃ before case after between, suite.cases = before ++ case :: after ∧
          (forM before Case.test : Step σ Unit) file = .ok () between ∧
          case.test between = .error fault file' := by
  have hplan : suite.plan = .ok (suite.cases.flatMap Case.procedures) := plan_of_check h
  refine ⟨⟨_, Case.mapM_plan (check_of_mem h), ?_⟩, ?_⟩
  · rw [hplan, List.flatMap]
  · intro σ _ file
    have hsame : (suite.compileTests : Step σ Unit) = forM suite.cases Case.test := by
      rw [compileTests, hplan, Case.forM_test (check_of_mem h)]
      rfl
    rw [hsame]
    exact ⟨rfl, fun fault file' => Step.forM_eq_error_iff⟩

/-- Two cases, the second of which has a fact that cannot be written between two that can. -/
def halting : Suite where
  cases := [{ name := "Add", facts := [{ name := "Once" }, { name := "Twice" }] },
    { name := "Tax"
      parameters := [⟨"rates", .array (.pointer (.model "Rate"))⟩]
      facts := [{ name := "Low", inputs := [.null] },
        { name := "Free", inputs := [.array (.pointer (.model "Rate")) []] },
        { name := "High", inputs := [.int 1] }] }]

/-- A file in which a name is taken. -/
def begun : Testify.File where
  package := "till"
  functions := ["TestOther"]

theorem compiled_case_by_case_halting :
    halting.check = .ok () ∧
    (∃ plans, halting.cases.mapM Case.plan = .ok plans ∧ halting.plan = .ok plans.flatten) ∧
    ∃ fault file, halting.compileTests begun = .error fault file ∧
      (forM halting.cases Case.test : Step Testify.File Unit) begun = .error fault file ∧
      file.functions = ["TestTaxLow", "TestAddTwice", "TestAddOnce", "TestOther"] := by
  have hcheck : halting.check = .ok () := rfl
  obtain ⟨hplan, hsame⟩ := compiled_case_by_case hcheck
  obtain ⟨fault, file, hstop, hfunctions⟩ := Step.exists_of_stops (by decide +kernel :
    Step.stops (fun file : Testify.File =>
        decide (file.functions = ["TestTaxLow", "TestAddTwice", "TestAddOnce", "TestOther"]))
      (halting.compileTests begun) = true)
  refine ⟨hcheck, hplan, fault, file, hstop, ?_, of_decide_eq_true hfunctions⟩
  rw [← (hsame Testify.File begun).1, hstop]

end Suite

end Polyglot
