import Polyglot.Proofs.Offences
import Polyglot.Proofs.TestFile.Scenarios

/-! # Suites that Testify files accept

A procedure is accepted exactly if its function has a new name and all its literals can be spelled.
So a suite is compiled exactly if it is valid, the names of its functions differ, and no literal is
written with a pointer. The file then declares the functions of all procedures, in order. If the
name of a function is taken, the file stays as the procedures before it left it.
-/

namespace Polyglot

namespace Testify

open Go

/-- The function of a procedure. -/
def functionOf (procedure : Procedure) : String :=
  functionName procedure.name

/-! ### One procedure -/

/-- What offends in the literals of a procedure, in the order in which they are spelled. -/
def offences (procedure : Procedure) : List Construct :=
  (literals procedure).flatMap (Value.offences (Go.offences none))

theorem reports_effectTexts (effects : List SideEffect) (imports : Imports) :
    Reports Go.target
      ((effects.map SideEffect.expected).flatMap (Value.offences (Go.offences none)))
      (Step.result (effectTexts effects imports)) := by
  induction effects generalizing imports with
  | nil => exact .pure _
  | cons effect rest ih =>
    exact (reports_valueText none effect.expected imports).bind_step fun _ noted =>
      (ih noted).map_step _

theorem reports_bodyTexts (procedure : Procedure) (inputs : List String) (imports : Imports) :
    Reports Go.target ((procedure.output.toList ++ procedure.sideEffects.map SideEffect.expected)
      |>.flatMap (Value.offences (Go.offences none)))
      (Step.result (bodyTexts procedure inputs imports)) := by
  have heffects := reports_effectTexts procedure.sideEffects
  rw [bodyTexts]
  cases procedure.output with
  | none => exact (heffects imports).map_step _
  | some output =>
    exact (reports_valueText none output imports).bind_step fun _ noted =>
      (heffects noted).map_step _

variable {procedure : Procedure} {file file' : File}

theorem not_contains_of_new (hnew : functionOf procedure ∉ file.functions) :
    ¬ file.functions.contains (functionName procedure.name) = true := by
  simpa [functionOf] using hnew

/-- A procedure whose function is new succeeds or fails as its literals do. -/
theorem result_addProcedure (hnew : functionOf procedure ∉ file.functions) :
    Step.result (addProcedure procedure file) = (do
      let inputs ← Step.result (valueTexts none procedure.inputs {})
      let _ ← Step.result (bodyTexts procedure inputs {})
      return ()) := by
  replace hnew := not_contains_of_new hnew
  cases hinputs : valueTexts none procedure.inputs {} with
  | error fault noted =>
    rw [addProcedure_of_inputs hnew hinputs]
    rfl
  | ok inputs noted =>
    change _ = Step.result (bodyTexts procedure inputs {}) >>= fun _ => pure ()
    cases hbody : bodyTexts procedure inputs {} with
    | error fault noted' =>
      obtain ⟨texts, hstop⟩ := addProcedure_of_body hnew hinputs hbody
      rw [hstop]
      rfl
    | ok texts noted' =>
      have hpos : Handle.root.index < (page.drafted texts {} file).document.blocks.size := by
        rw [size_drafted]
        exact Nat.succ_pos _
      rw [addProcedure_of_ok hnew hinputs hbody (Array.getElem?_eq_getElem hpos)]
      rfl

/-- A procedure whose function is new reports what offends in its literals first. -/
theorem reports_addProcedure (hnew : functionOf procedure ∉ file.functions) :
    Reports Go.target (offences procedure) (Step.result (addProcedure procedure file)) := by
  have hinputs : Reports Go.target (procedure.inputs.flatMap (Value.offences (Go.offences none)))
      (Step.result (Go.valueTexts none procedure.inputs {})) :=
    reports_valueTexts (fun value _ => reports_valueText none value) {}
  rw [result_addProcedure hnew, offences, literals, List.append_assoc, List.flatMap_append]
  exact hinputs.bind fun inputs => (reports_bodyTexts procedure inputs {}).map _

theorem addProcedure_of_taken (h : functionOf procedure ∈ file.functions) :
    addProcedure procedure file =
      .error (.invalidSuite (.repeatedFunction (functionOf procedure))) file := by
  have htaken : file.functions.contains (functionName procedure.name) = true := by
    simpa [functionOf] using h
  rw [addProcedure_eq, Step.bind_of_ok (Step.get_apply file), if_pos htaken]
  rfl

/-- A procedure is added exactly if its function is new and nothing in its literals offends. -/
theorem addProcedure_ok_iff : (∃ file', addProcedure procedure file = .ok () file') ↔
    functionOf procedure ∉ file.functions ∧ offences procedure = [] := by
  by_cases htaken : functionOf procedure ∈ file.functions
  · rw [addProcedure_of_taken htaken]
    simp [htaken]
  · rw [and_iff_right htaken, ← (reports_addProcedure htaken).succeeds_iff]
    cases addProcedure procedure file <;> simp [Step.result]

theorem functions_of_addProcedure (h : addProcedure procedure file = .ok () file') :
    file'.functions = functionOf procedure :: file.functions := by
  obtain ⟨_, _, _, _, -, -, _, rfl, -, -⟩ := changes_of_ok h
  rfl

/-! ### Many procedures -/

variable {procedures : List Procedure}

theorem procedures_cons_eq_ok_iff : TestTarget.procedures (procedure :: procedures) file =
    .ok () file' ↔ ∃ between, addProcedure procedure file = .ok () between ∧
      TestTarget.procedures procedures between = .ok () file' := by
  rw [TestTarget.procedures, Step.bind_eq_ok_iff]
  constructor
  · rintro ⟨_, h⟩
    exact h
  · intro h
    exact ⟨(), h⟩

/-- The names of functions are kept, the latest first. -/
theorem functions_of_procedures (hrun : TestTarget.procedures procedures file = .ok () file') :
    file'.functions = (procedures.map functionOf).reverse ++ file.functions := by
  induction procedures generalizing file with
  | nil =>
    cases hrun
    rfl
  | cons procedure rest ih =>
    obtain ⟨between, hfirst, hrest⟩ := procedures_cons_eq_ok_iff.mp hrun
    rw [ih hrest, functions_of_addProcedure hfirst]
    simp

/-- Procedures are added exactly if their functions differ from each other and from those before,
and nothing in their literals offends. -/
theorem procedures_ok_iff : (∃ file', TestTarget.procedures procedures file = .ok () file') ↔
    (procedures.map functionOf).Nodup ∧
      ∀ procedure ∈ procedures, functionOf procedure ∉ file.functions ∧
        offences procedure = [] := by
  induction procedures generalizing file with
  | nil => exact iff_of_true ⟨file, rfl⟩ (by simp)
  | cons procedure rest ih =>
    rw [List.map_cons, List.nodup_cons, List.forall_mem_cons]
    constructor
    · rintro ⟨file', hrun⟩
      obtain ⟨between, hfirst, hrest⟩ := procedures_cons_eq_ok_iff.mp hrun
      obtain ⟨hnodup, hothers⟩ := ih.mp ⟨file', hrest⟩
      rw [functions_of_addProcedure hfirst] at hothers
      refine ⟨⟨?_, hnodup⟩, addProcedure_ok_iff.mp ⟨between, hfirst⟩, ?_⟩
      · intro hmem
        obtain ⟨other, hother, heq⟩ := List.mem_map.mp hmem
        exact (hothers other hother).1 (heq ▸ List.mem_cons_self)
      · intro other hother
        exact ⟨fun hmem => (hothers other hother).1 (List.mem_cons_of_mem _ hmem),
          (hothers other hother).2⟩
    · rintro ⟨⟨hapart, hnodup⟩, hprocedure, hothers⟩
      obtain ⟨between, hfirst⟩ := addProcedure_ok_iff.mpr hprocedure
      have hlater : ∀ other ∈ rest, functionOf other ∉ between.functions ∧
          offences other = [] := by
        intro other hother
        rw [functions_of_addProcedure hfirst, List.mem_cons, not_or]
        exact ⟨⟨fun heq => hapart (heq ▸ List.mem_map_of_mem hother), (hothers other hother).1⟩,
          (hothers other hother).2⟩
      obtain ⟨file', hrest⟩ := ih.mpr ⟨hnodup, hlater⟩
      exact ⟨file', procedures_cons_eq_ok_iff.mpr ⟨between, hfirst, hrest⟩⟩

theorem addProcedure_repeated_iff {name : String} :
    addProcedure procedure file = .error (.invalidSuite (.repeatedFunction name)) file' ↔
      functionOf procedure = name ∧ name ∈ file.functions ∧ file' = file := by
  constructor
  · intro hrun
    by_cases htaken : functionOf procedure ∈ file.functions
    · rw [addProcedure_of_taken htaken] at hrun
      cases hrun
      exact ⟨rfl, htaken, rfl⟩
    · obtain ⟨_, -, hfault⟩ := (reports_addProcedure htaken).eq_error_iff.mp
        (congrArg Step.result hrun)
      cases hfault
  · rintro ⟨rfl, htaken, rfl⟩
    exact addProcedure_of_taken htaken

/-- The name of a function is reported as taken exactly if a procedure repeats it after others that
were added; the file is then left as those made it. -/
theorem procedures_repeated_iff {name : String} : TestTarget.procedures procedures file =
    .error (.invalidSuite (.repeatedFunction name)) file' ↔
      ∃ before procedure after, procedures = before ++ procedure :: after ∧
        functionOf procedure = name ∧ name ∈ file'.functions ∧
        TestTarget.procedures before file = .ok () file' := by
  induction procedures generalizing file with
  | nil =>
    constructor
    · rintro ⟨⟩
    · rintro ⟨before, procedure, after, hsplit, -⟩
      simp at hsplit
  | cons first rest ih =>
    rw [TestTarget.procedures, Step.bind_eq_error_iff]
    constructor
    · rintro (hstop | ⟨_, between, hfirst, hrest⟩)
      · obtain ⟨hname, htaken, rfl⟩ := addProcedure_repeated_iff.mp hstop
        exact ⟨[], first, rest, rfl, hname, htaken, rfl⟩
      · obtain ⟨before, procedure, after, rfl, hname, htaken, hbefore⟩ := ih.mp hrest
        exact ⟨first :: before, procedure, after, rfl, hname, htaken,
          procedures_cons_eq_ok_iff.mpr ⟨between, hfirst, hbefore⟩⟩
    · rintro ⟨before, procedure, after, hsplit, hname, htaken, hbefore⟩
      cases before with
      | nil =>
        cases hbefore
        obtain ⟨rfl, rfl⟩ := List.cons.inj hsplit
        exact .inl (addProcedure_repeated_iff.mpr ⟨hname, htaken, rfl⟩)
      | cons other before =>
        obtain ⟨rfl, rfl⟩ := List.cons.inj hsplit
        obtain ⟨between, hfirst, hbefore⟩ := procedures_cons_eq_ok_iff.mp hbefore
        exact .inr ⟨(), between, hfirst,
          ih.mpr ⟨before, procedure, after, rfl, hname, htaken, hbefore⟩⟩

end Testify

/-! ### Suites -/

namespace Suite

section
variable {ε α : Type} {defect other : ε}

theorem refuse_bind_ne {condition : Prop} [Decidable condition] {next : Unit → Except ε α}
    (hdefect : defect ≠ other) (hnext : next () ≠ .error other) :
    (if condition then (throw defect : Except ε Unit) >>= next else next ()) ≠ .error other := by
  split
  · intro h
    exact hdefect (Except.error.inj h)
  · exact hnext

theorem pass_bind_ne {β : Type} {check : Except ε β} {next : β → Except ε α}
    (hcheck : check ≠ .error other) (hnext : ∀ b, next b ≠ .error other) :
    (check >>= next) ≠ .error other := by
  cases check with
  | ok b => exact hnext b
  | error found => exact fun h => hcheck (congrArg Except.error (Except.error.inj h))

end

variable {name : String}

theorem checkFact_ne (case : Case) (fact : Fact) :
    case.checkFact fact ≠ .error (.repeatedFunction name) := by
  rw [Case.checkFact]
  apply refuse_bind_ne (by simp)
  apply refuse_bind_ne (by simp)
  split
  · rintro ⟨⟩
  · rintro ⟨⟩

theorem checkFacts_ne (case : Case) (seen : List String) (facts : List Fact) :
    case.checkFacts seen facts ≠ .error (.repeatedFunction name) := by
  induction facts generalizing seen with
  | nil => nofun
  | cons fact rest ih =>
    rw [Case.checkFacts]
    apply refuse_bind_ne (by simp)
    exact pass_bind_ne (checkFact_ne case fact) fun _ => ih _

theorem addProcedures_ne (seen names : List String) :
    addProcedures seen names ≠ .error (.repeatedFunction name) := by
  induction names generalizing seen with
  | nil => nofun
  | cons first rest ih =>
    rw [addProcedures]
    exact refuse_bind_ne (by simp) (ih _)

theorem checkCases_ne (earlier procedures : List String) (cases : List Case) :
    checkCases earlier procedures cases ≠ .error (.repeatedFunction name) := by
  induction cases generalizing earlier procedures with
  | nil => nofun
  | cons case rest ih =>
    rw [checkCases]
    apply refuse_bind_ne (by simp)
    apply pass_bind_ne (checkFacts_ne case [] case.facts)
    intro _
    exact pass_bind_ne (addProcedures_ne _ _) fun _ => ih _ _

/-- No literal of the suite is written with a pointer. -/
def PointerFree (suite : Suite) : Prop :=
  ∀ case ∈ suite.cases, ∀ fact ∈ case.facts, ∀ value, fact.Mentions value →
    ∀ part, value.Holds part → ∀ ty ∈ part.types, ty.hasPointer = false

variable {suite : Suite}

theorem compileTests_of_valid {σ : Type} [TestTarget σ] (h : suite.Valid) (file : σ) :
    suite.compileTests file = TestTarget.procedures suite.allProcedures file := by
  rw [compileTests, plan_of_check (check_eq_ok_iff.mpr h)]
  rfl

/-- The literals of a valid suite refer to no receiver, so that only pointers offend in them. -/
theorem pointerFree_iff (hvalid : suite.Valid) : suite.PointerFree ↔
    ∀ procedure ∈ suite.allProcedures, Testify.offences procedure = [] := by
  have hown : ∀ part : Value, part.kind ≠ .ownField →
      (Go.offences none part = [] ↔ ∀ ty ∈ part.types, ty.hasPointer = false) := by
    intro part hkind
    rw [← not_iff_not, ← ne_eq, Go.offences_ne_nil_iff]
    simp [hkind]
  simp only [Testify.offences, List.flatMap_eq_nil_iff, Value.offences_eq_nil_iff]
  constructor
  · intro h procedure hprocedure value hvalue part hholds
    obtain ⟨case, hcase, fact, hfact, rfl⟩ := mem_allProcedures.mp hprocedure
    have hmentions : fact.Mentions value := Fact.mem_literals.mp hvalue
    have hfree := hvalid.literals case hcase fact hfact value hmentions part hholds
    exact (hown part fun hkind => hfree (by simp [hkind])).mpr
      (h case hcase fact hfact value hmentions part hholds)
  · intro h case hcase fact hfact value hmentions part hholds
    have hfree := hvalid.literals case hcase fact hfact value hmentions part hholds
    exact (hown part fun hkind => hfree (by simp [hkind])).mp
      (h (case.procedure fact) (mem_allProcedures.mpr ⟨case, hcase, fact, hfact, rfl⟩) value
        (Fact.mem_literals.mpr hmentions) part hholds)

/-- The declaration of a test function after a blank line. -/
def functionText (name : String) (lines : List String) : String :=
  "\nfunc " ++ name ++ "(t *testing.T) \x7b\n" ++
    String.join (lines.map fun line => "\t" ++ line ++ "\n") ++ "\x7d\n"

/-- The text of a test in Go declares the function of its procedure. -/
theorem exists_functionText {scenario : Scenario} {text : String}
    (h : Testify.dialect.text scenario = .ok text) :
    ∃ lines, "\n" ++ text = functionText (Testify.functionOf scenario.procedure) lines := by
  obtain ⟨lines, -, h⟩ := Step.outcome_bind_eq_ok_iff.mp h
  obtain rfl := Except.ok.inj h
  refine ⟨lines, String.toList_injective ?_⟩
  simp [functionText, Testify.dialect, Testify.functionOf, Scenario.procedure]

/-- Exactly the valid suites whose functions have different names and whose literals are written
without pointers are compiled to Go tests. The file then declares the functions of all procedures,
in order. If the name of a function is taken, the file is left as the procedures before made it. -/
theorem testify_accepts_iff (package : String) (suite : Suite)
    (hroom : suite.factCount < Handle.count) :
    ((∃ file, suite.compileTests ({ package } : Testify.File) = .ok () file) ↔
      suite.Valid ∧ (suite.allProcedures.map Testify.functionOf).Nodup ∧ suite.PointerFree) ∧
    (∀ file, suite.compileTests ({ package } : Testify.File) = .ok () file →
      suite.allProcedures.length = suite.factCount ∧
      (suite.allProcedures.map Testify.functionOf).Nodup ∧
      ∃ functions, List.Forall₂ (fun procedure function => ∃ lines,
          function = functionText (Testify.functionOf procedure) lines)
          suite.allProcedures functions ∧
        file.render = .ok ("package " ++ package ++ "\n" ++ Go.importBlock file.imports.toList ++
          String.join functions)) ∧
    ∀ name file, suite.compileTests ({ package } : Testify.File) =
        .error (.invalidSuite (.repeatedFunction name)) file ↔
      suite.Valid ∧ ∃ before procedure after,
        suite.allProcedures = before ++ procedure :: after ∧
        Testify.functionOf procedure = name ∧ name ∈ before.map Testify.functionOf ∧
        TestTarget.procedures before ({ package } : Testify.File) = .ok () file := by
  have haccepted : (∃ file, suite.compileTests ({ package } : Testify.File) = .ok () file) ↔
      suite.Valid ∧ (suite.allProcedures.map Testify.functionOf).Nodup ∧ suite.PointerFree := by
    constructor
    · rintro ⟨file, hcompile⟩
      have hvalid := valid_of_compileTests hcompile
      rw [compileTests_of_valid hvalid] at hcompile
      obtain ⟨hnodup, hall⟩ := Testify.procedures_ok_iff.mp ⟨file, hcompile⟩
      exact ⟨hvalid, hnodup, (pointerFree_iff hvalid).mpr fun procedure hprocedure =>
        (hall procedure hprocedure).2⟩
    · rintro ⟨hvalid, hnodup, hfree⟩
      rw [compileTests_of_valid hvalid]
      refine Testify.procedures_ok_iff.mpr ⟨hnodup, fun procedure hprocedure => ⟨?_, ?_⟩⟩
      · exact List.not_mem_nil
      · exact (pointerFree_iff hvalid).mp hfree procedure hprocedure
  refine ⟨haccepted, ?_, ?_⟩
  · intro file hcompile
    obtain ⟨-, hnodup, -⟩ := haccepted.mp ⟨file, hcompile⟩
    obtain ⟨body, hbody, hrender⟩ := render_testify hcompile hroom
    obtain ⟨texts, htexts, rfl⟩ := Dialect.exists_texts_of_body hbody
    refine ⟨length_allProcedures suite, hnodup, _, ?_, hrender⟩
    rw [← map_procedure_scenarios, List.forall₂_map_left_iff, List.forall₂_map_right_iff]
    exact htexts.imp fun _ _ => exists_functionText
  · intro name file
    constructor
    · intro hcompile
      have hvalid : suite.Valid := by
        cases hcheck : suite.check with
        | ok passed => exact check_eq_ok_iff.mp hcheck
        | error defect =>
          rw [compileTests_of_defect hcheck] at hcompile
          cases hcompile
          exact absurd hcheck (checkCases_ne [] [] suite.cases)
      rw [compileTests_of_valid hvalid] at hcompile
      obtain ⟨before, procedure, after, hsplit, hname, htaken, hbefore⟩ :=
        Testify.procedures_repeated_iff.mp hcompile
      rw [Testify.functions_of_procedures hbefore] at htaken
      exact ⟨hvalid, before, procedure, after, hsplit, hname, by simpa using htaken, hbefore⟩
    · rintro ⟨hvalid, before, procedure, after, hsplit, hname, htaken, hbefore⟩
      rw [compileTests_of_valid hvalid]
      refine Testify.procedures_repeated_iff.mpr
        ⟨before, procedure, after, hsplit, hname, ?_, hbefore⟩
      rw [Testify.functions_of_procedures hbefore]
      simpa using htaken

/-- Two procedures whose names differ, but whose functions have the same name: the first letter of
one of them has two letters in upper case. -/
def sharpened : Suite where
  cases := [{ name := "ßum", facts := [{ name := "Once" }] },
    { name := "SSum", facts := [{ name := "Twice" }, { name := "Once" }] }]

theorem testify_accepts_iff_sharpened :
    (∃ file, apart.compileTests ({ package := "till" } : Testify.File) = .ok () file) ∧
    sharpened.Valid ∧
    (¬ ∃ file, sharpened.compileTests ({ package := "till" } : Testify.File) = .ok () file) ∧
    ∃ file, TestTarget.procedures (sharpened.allProcedures.take 2)
        ({ package := "till" } : Testify.File) = .ok () file ∧
      sharpened.compileTests ({ package := "till" } : Testify.File) =
        .error (.invalidSuite (.repeatedFunction "TestSSumOnce")) file := by
  have hvalid : sharpened.Valid := check_eq_ok_iff.mp (by decide +kernel)
  have happly := testify_accepts_iff "till" sharpened (by decide +kernel)
  obtain ⟨_, file, hbefore, -⟩ := Step.exists_of_leaves (by decide +kernel :
    Step.leaves (fun _ => true) (TestTarget.procedures (sharpened.allProcedures.take 2)
      ({ package := "till" } : Testify.File)) = true)
  refine ⟨?_, hvalid, ?_, file, hbefore, ?_⟩
  · refine (testify_accepts_iff "till" apart (by decide +kernel)).1.mpr
      ⟨check_eq_ok_iff.mp rfl, by decide +kernel, ?_⟩
    have hnone : ∀ case ∈ apart.cases, ∀ fact ∈ case.facts, fact.literals = [] := by decide
    intro case hcase fact hfact value hmentions
    rw [← Fact.mem_literals, hnone case hcase fact hfact] at hmentions
    simp at hmentions
  · intro haccepted
    exact absurd (happly.1.mp haccepted).2.1 (by decide +kernel)
  · exact (happly.2.2 _ file).mpr ⟨hvalid, _, _, [], rfl, rfl, by decide +kernel, hbefore⟩

end Suite

end Polyglot
