import Polyglot.Proofs.TestFile.Usage
import Polyglot.Proofs.TestFile.Jest

/-! # Tests of single facts

What the test of a fact says, apart from any file. A test is worded in a dialect: it makes a fresh
model, calls the method with the inputs, captures and checks the output exactly if there is one, and
checks the side effects in order. The text depends on the fact and on the name of its case alone.
The tests of a suite share one document, and in Go one set of imports, but what a file shows after
its heading is the text of one test after the other, each after a blank line.
-/

namespace Polyglot

theorem Step.exists_of_mem_mapM {ε α β : Type} {f : α → Except ε β} {items : List α}
    {results : List β} (h : items.mapM f = .ok results) {b : β} (hb : b ∈ results) :
    ∃ a ∈ items, f a = .ok b := by
  induction items generalizing results with
  | nil =>
    rw [List.mapM_nil] at h
    obtain rfl := Except.ok.inj h
    simp at hb
  | cons a rest ih =>
    rw [List.mapM_cons] at h
    obtain ⟨first, hfirst, h⟩ := outcome_bind_eq_ok_iff.mp h
    obtain ⟨others, hothers, h⟩ := outcome_bind_eq_ok_iff.mp h
    obtain rfl := Except.ok.inj h
    rcases List.mem_cons.mp hb with rfl | hb
    · exact ⟨a, List.mem_cons_self, hfirst⟩
    · obtain ⟨other, hother, hresult⟩ := ih hothers hb
      exact ⟨other, List.mem_cons_of_mem a hother, hresult⟩

/-- How a passage without blank lines stands in a file. -/
theorem Passage.displayAll_lines {passage : Passage} (hheader : passage.header ≠ "")
    (htexts : ∀ text ∈ passage.texts, text ≠ "") (hfooter : passage.footer ≠ "") :
    Line.displayAll passage.lines = passage.header ++ "\n" ++
      String.join (passage.texts.map fun text => "\t" ++ text ++ "\n") ++
        passage.footer ++ "\n" := by
  have hbody : ∀ texts : List String, (∀ text ∈ texts, text ≠ "") →
      Line.displayAll (texts.map (Line.mk 1)) =
        String.join (texts.map fun text => "\t" ++ text ++ "\n") := by
    intro texts htexts
    induction texts with
    | nil => rfl
    | cons text rest ih =>
      have htext := htexts text List.mem_cons_self
      have hrest := ih fun other hother => htexts other (List.mem_cons_of_mem text hother)
      rw [List.map_cons, List.map_cons, Line.displayAll, hrest, Line.display, if_neg htext,
        String.join_cons]
      rfl
  rw [lines, Line.displayAll, Line.displayAll_append, hbody _ htexts, Line.display,
    if_neg hheader, Line.displayAll, Line.display, if_neg hfooter, Line.displayAll]
  simp [String.append_assoc]

/-- A fact and the name of the case that it is about. -/
structure Scenario where
  method : String
  fact : Fact

namespace Scenario

def name (scenario : Scenario) : String :=
  scenario.method ++ scenario.fact.name

def procedure (scenario : Scenario) : Procedure where
  name := scenario.name
  method := scenario.method
  inputs := scenario.fact.inputs
  output := scenario.fact.output
  sideEffects := scenario.fact.sideEffects

end Scenario

/-- The facts of the suite, in the order of cases and facts. -/
def Suite.scenarios (suite : Suite) : List Scenario :=
  suite.cases.flatMap fun case => case.facts.map fun fact => ⟨case.name, fact⟩

theorem Suite.map_procedure_scenarios (suite : Suite) :
    suite.scenarios.map Scenario.procedure = suite.allProcedures := by
  simp [scenarios, allProcedures, List.map_flatMap, Scenario.procedure, Scenario.name,
    Function.comp_def]

/-- The wording of tests. No line of a test is blank. -/
structure Dialect where
  literal : Value → Except Fault String
  /-- How the test of a name starts. -/
  opening : String → String
  /-- Makes a fresh model. -/
  fresh : String
  /-- A call whose output is not looked at. -/
  perform : String → String
  /-- A call whose output is kept. -/
  capture : String → String
  /-- Checks that the subject is as expected. -/
  check (subject expected : String) : String
  closing : String
  opening_ne (name : String) : opening name ≠ ""
  fresh_ne : fresh ≠ ""
  perform_ne {call : String} (h : call ≠ "") : perform call ≠ ""
  capture_ne (call : String) : capture call ≠ ""
  check_ne (subject expected : String) : check subject expected ≠ ""
  closing_ne : closing ≠ ""

namespace Dialect

variable (dialect : Dialect)

/-- The call of the method, given the spelling of the inputs. -/
def callText (method : String) (inputs : List String) : String :=
  "model." ++ method ++ "(" ++ Text.commaSeparated inputs ++ ")"

/-- The call and, if the fact has an output, the check of it. -/
def outcomeLines (call : String) : Option Value → Except Fault (List String)
  | none => return [dialect.perform call]
  | some output => do
    let expected ← dialect.literal output
    return [dialect.capture call, dialect.check "output" expected]

def effectLine (effect : SideEffect) : Except Fault String := do
  let expected ← dialect.literal effect.expected
  return dialect.check ("model." ++ effect.field) expected

/-- What the test of a fact does, line by line. -/
def lines (scenario : Scenario) : Except Fault (List String) := do
  let inputs ← scenario.fact.inputs.mapM dialect.literal
  let outcome ← dialect.outcomeLines (callText scenario.method inputs) scenario.fact.output
  let effects ← scenario.fact.sideEffects.mapM dialect.effectLine
  return dialect.fresh :: (outcome ++ effects)

/-- The test of a fact. -/
def text (scenario : Scenario) : Except Fault String := do
  let lines ← dialect.lines scenario
  return dialect.opening scenario.name ++ "\n" ++
    String.join (lines.map fun line => "\t" ++ line ++ "\n") ++ dialect.closing ++ "\n"

/-- The tests of facts one after the other, each after a blank line. -/
def body : List Scenario → Except Fault String
  | [] => return ""
  | scenario :: rest => do
    let test ← dialect.text scenario
    let tests ← body rest
    return "\n" ++ test ++ tests

/-- The test of a fact as a passage. -/
def passage (scenario : Scenario) : Except Fault Passage := do
  let texts ← dialect.lines scenario
  return { header := dialect.opening scenario.name, texts, footer := dialect.closing }

/-! ### Lines -/

variable {dialect} {scenario : Scenario}

/-- Every line of a test says something. -/
theorem ne_of_mem_lines {lines : List String} (h : dialect.lines scenario = .ok lines) :
    ∀ line ∈ lines, line ≠ "" := by
  obtain ⟨inputs, -, h⟩ := Step.outcome_bind_eq_ok_iff.mp h
  obtain ⟨outcome, houtcome, h⟩ := Step.outcome_bind_eq_ok_iff.mp h
  obtain ⟨effects, heffects, h⟩ := Step.outcome_bind_eq_ok_iff.mp h
  obtain rfl := Except.ok.inj h
  have hcall : callText scenario.method inputs ≠ "" := by simp [callText]
  intro line hline
  rcases List.mem_cons.mp hline with rfl | hline
  · exact dialect.fresh_ne
  rcases List.mem_append.mp hline with hline | hline
  · cases houtput : scenario.fact.output with
    | none =>
      rw [houtput] at houtcome
      obtain rfl := Except.ok.inj houtcome
      obtain rfl := List.mem_singleton.mp hline
      exact dialect.perform_ne hcall
    | some output =>
      rw [houtput] at houtcome
      obtain ⟨expected, -, houtcome⟩ := Step.outcome_bind_eq_ok_iff.mp houtcome
      obtain rfl := Except.ok.inj houtcome
      rcases List.mem_cons.mp hline with rfl | hline
      · exact dialect.capture_ne _
      · obtain rfl := List.mem_singleton.mp hline
        exact dialect.check_ne _ _
  · obtain ⟨effect, -, heffect⟩ := Step.exists_of_mem_mapM heffects hline
    obtain ⟨expected, -, heffect⟩ := Step.outcome_bind_eq_ok_iff.mp heffect
    obtain rfl := Except.ok.inj heffect
    exact dialect.check_ne _ _

theorem text_of_passage {passage : Passage} (h : dialect.passage scenario = .ok passage) :
    dialect.text scenario = .ok (Line.displayAll passage.lines) := by
  obtain ⟨texts, htexts, h⟩ := Step.outcome_bind_eq_ok_iff.mp h
  obtain rfl := Except.ok.inj h
  rw [text, htexts, Passage.displayAll_lines (dialect.opening_ne _) (ne_of_mem_lines htexts)
    dialect.closing_ne]
  rfl

/-- The texts of passages that are shown one after the other. -/
theorem body_of_passages {scenarios : List Scenario} {passages : List Passage}
    (h : List.Forall₂ (fun scenario passage => dialect.passage scenario = .ok passage)
      scenarios passages) :
    dialect.body scenarios =
      .ok (Line.displayAll (passages.flatMap fun passage => .blank :: passage.lines)) := by
  induction h with
  | nil => rfl
  | @cons scenario passage scenarios passages hfirst hrest ih =>
    have hblank : Line.blank.display = "\n" := rfl
    rw [body, text_of_passage hfirst, ih, List.flatMap_cons, List.cons_append, Line.displayAll,
      Line.displayAll_append, hblank, ← String.append_assoc]
    rfl

theorem exists_texts_of_body {scenarios : List Scenario} {body : String}
    (h : dialect.body scenarios = .ok body) :
    ∃ texts, List.Forall₂ (fun scenario text => dialect.text scenario = .ok text) scenarios texts ∧
      body = String.join (texts.map fun text => "\n" ++ text) := by
  induction scenarios generalizing body with
  | nil => exact ⟨[], .nil, (Except.ok.inj h).symm⟩
  | cons scenario rest ih =>
    obtain ⟨test, htest, h⟩ := Step.outcome_bind_eq_ok_iff.mp h
    obtain ⟨tests, htests, h⟩ := Step.outcome_bind_eq_ok_iff.mp h
    obtain ⟨texts, htexts, rfl⟩ := ih htests
    refine ⟨test :: texts, .cons htest htexts, ?_⟩
    rw [List.map_cons, String.join_cons]
    exact (Except.ok.inj h).symm

/-- The tests of facts do not depend on each other. -/
theorem body_append (before after : List Scenario) : dialect.body (before ++ after) = (do
    let first ← dialect.body before
    let last ← dialect.body after
    return first ++ last) := by
  induction before with
  | nil => cases h : dialect.body after <;> simp [body, h]
  | cons scenario rest ih =>
    simp only [List.cons_append, body, ih, bind_assoc, pure_bind, String.append_assoc]

end Dialect

/-! ### Runs -/

/-- What holds of the procedures added so far and the file, and is kept by each procedure that is
added, holds after all of them. -/
theorem TestTarget.procedures_invariant {σ : Type} [TestTarget σ]
    {P : List Procedure → σ → Prop} (hstep : ∀ {past procedure file file'}, P past file →
      TestTarget.procedure procedure file = .ok () file' → P (past ++ [procedure]) file')
    {past procedures : List Procedure} {file file' : σ} (h : P past file)
    (hrun : TestTarget.procedures procedures file = .ok () file') :
    P (past ++ procedures) file' := by
  induction procedures generalizing past file with
  | nil =>
    cases hrun
    rwa [List.append_nil]
  | cons procedure rest ih =>
    rw [TestTarget.procedures] at hrun
    obtain ⟨_, between, hfirst, hrest⟩ := Step.bind_eq_ok_iff.mp hrun
    rw [List.append_cons]
    exact ih (hstep h hfirst) hrest

/-- The document has a block for each of the procedures, and shows their passages while there are
handles for all blocks. -/
structure Document.Tells (join : List (List Entry) → List Entry)
    (passage : Procedure → Except Fault Passage) (past : List Procedure) (document : Document) :
    Prop where
  size_eq : document.blocks.size = past.length + 1
  shows : past.length < Handle.count → ∃ passages,
    List.Forall₂ (fun procedure made => passage procedure = .ok made) past passages ∧
      document.Shows join passages

theorem Document.Tells.add {join : List (List Entry) → List Entry}
    {passage : Procedure → Except Fault Passage} {past : List Procedure}
    {document document' : Document} (h : document.Tells join passage past) {procedure : Procedure}
    {made : Passage} (hmade : passage procedure = .ok made)
    (hsize : document'.blocks.size = document.blocks.size + 1)
    (hshows : ∀ passages, document.Shows join passages → document'.blocks.size ≤ Handle.count →
      document'.Shows join (passages ++ [made])) :
    document'.Tells join passage (past ++ [procedure]) where
  size_eq := by rw [hsize, h.size_eq, List.length_append, List.length_singleton]
  shows hroom := by
    rw [List.length_append, List.length_singleton] at hroom
    obtain ⟨passages, hpassages, hold⟩ := h.shows (by omega)
    refine ⟨passages ++ [made], List.rel_append hpassages (.cons hmade .nil), ?_⟩
    apply hshows passages hold
    rw [hsize, h.size_eq]
    omega

theorem Document.Tells.start (join : List (List Entry) → List Entry) (hjoin : join [] = [])
    (passage : Procedure → Except Fault Passage) : ({} : Document).Tells join passage [] where
  size_eq := rfl
  shows _ := ⟨[], .nil, [], .nil, by rw [List.zipWith_nil_left, hjoin]; rfl⟩

/-! ### Jest -/

namespace Jest

def dialect : Dialect where
  literal := TypeScript.valueText
  opening name := "test(" ++ Text.quote name ++ ", () => \x7b"
  fresh := "const model = new TestModel();"
  perform call := call ++ ";"
  capture call := "const output = " ++ call ++ ";"
  check subject expected := "expect(" ++ subject ++ ").toEqual(" ++ expected ++ ");"
  closing := "\x7d);"
  opening_ne _ := by simp
  fresh_ne := by decide
  perform_ne _ := by simp
  capture_ne _ := by simp
  check_ne _ _ := by simp
  closing_ne := by decide

theorem valueTexts_eq_mapM (values : List Value) :
    TypeScript.valueTexts values = values.mapM TypeScript.valueText := by
  induction values with
  | nil => rfl
  | cons value rest ih => rw [TypeScript.valueTexts, ih, List.mapM_cons]

theorem effectTexts_eq_mapM (effects : List SideEffect) :
    effectTexts effects = effects.mapM dialect.effectLine := by
  induction effects with
  | nil => rfl
  | cons effect rest ih =>
    rw [effectTexts, ih, List.mapM_cons]
    rfl

theorem passage_procedure (scenario : Scenario) :
    passage scenario.procedure = dialect.passage scenario := by
  rw [passage, Dialect.passage, Dialect.lines]
  simp only [bodyTexts, valueTexts_eq_mapM, effectTexts_eq_mapM, Scenario.procedure]
  cases houtput : scenario.fact.output with
  | none =>
    simp only [Dialect.outcomeLines, bind_assoc, pure_bind]
    rfl
  | some output =>
    simp only [Dialect.outcomeLines, expectation, bind_assoc, pure_bind]
    rfl

theorem tells_step {past : List Procedure} {procedure : Procedure} {file file' : File}
    (h : file.document.Tells join passage past)
    (hrun : TestTarget.procedure procedure file = .ok () file') :
    file'.module = file.module ∧ file'.document.Tells join passage (past ++ [procedure]) := by
  have hfile' : file' = Step.state (TestTarget.procedure procedure file) := by rw [hrun]; rfl
  rw [state_procedure] at hfile'
  subst hfile'
  refine ⟨rfl, ?_⟩
  obtain ⟨made, hmade, hwidth⟩ : ∃ made, passage procedure = .ok made ∧ width procedure = 1 := by
    change Step.focus _ _ (addProcedure procedure) file = _ at hrun
    rcases addProcedure_cases file.document procedure with ⟨_, -, -, hstop⟩ | ⟨_, _, -, -, hstop⟩ |
      ⟨made, hmade, hwidth, -⟩
    · rw [Step.focus_of_error hstop] at hrun
      cases hrun
    · rw [Step.focus_of_error hstop] at hrun
      cases hrun
    · exact ⟨made, hmade, hwidth⟩
  refine h.add hmade ?_ ?_
  · rw [size_addProcedure, hwidth]
  · intro passages hshows hroom
    have hnew := shows_addProcedure hshows procedure hroom
    rwa [hmade] at hnew

/-- A file with the tests of facts shows their texts after its import. -/
theorem render_of_tells {scenarios : List Scenario} {file : File}
    (h : file.document.Tells join passage (scenarios.map Scenario.procedure))
    (hroom : scenarios.length < Handle.count) :
    ∃ body, dialect.body scenarios = .ok body ∧ file.render =
      .ok ("import \x7b TestModel \x7d from " ++ Text.quote file.module ++ ";\n" ++ body) := by
  obtain ⟨passages, hpassages, hshows⟩ := h.shows (by rwa [List.length_map])
  rw [List.forall₂_map_left_iff] at hpassages
  simp only [passage_procedure] at hpassages
  refine ⟨_, Dialect.body_of_passages hpassages, ?_⟩
  have hheading : ∀ text : String, text ≠ "" → Sink.line 0 text (Buffer.ofIndent .tab) =
      { indent := .tab, text := text ++ "\n" } := by
    intro text htext
    refine Eq.trans (Line.text_line "" ⟨0, text⟩) ?_
    rw [Line.display, if_neg htext]
    simp
  have hstart : "import \x7b " ++ testModel ++ " \x7d from " = "import \x7b TestModel \x7d from " :=
    rfl
  have hend : ∀ text : String, text ++ ";" ++ "\n" = text ++ ";\n" := by
    intro text
    rw [String.append_assoc]
    rfl
  rw [File.render, hheading _ (by simp), hshows.renderAfter_eq prints_join, List.flatMap_map,
    hstart, hend]

end Jest

/-! ### Testify -/

namespace Testify

def dialect : Dialect where
  literal value := Step.result (Go.valueText none value {})
  opening name := "func " ++ functionName name ++ "(t *testing.T) \x7b"
  fresh := "model := TestModel\x7b\x7d"
  perform call := call
  capture call := "output := " ++ call
  check subject expected := "require.EqualValues(t, " ++ expected ++ ", " ++ subject ++ ")"
  closing := "\x7d"
  opening_ne _ := by simp
  fresh_ne := by decide
  perform_ne h := h
  capture_ne _ := by simp
  check_ne _ _ := by simp
  closing_ne := by decide

theorem result_valueTexts (values : List Value) :
    Step.result (Go.valueTexts none values {}) = values.mapM dialect.literal := by
  induction values with
  | nil => rfl
  | cons value rest ih =>
    have hrest := Go.additive_valueTexts none rest
    rw [Go.valueTexts, Additive.result_bind fun _ => hrest.bind fun _ => .pure _, List.mapM_cons,
      ← ih]
    simp only [Additive.result_bind fun _ => .pure _]
    rfl

theorem result_effectTexts (effects : List SideEffect) :
    Step.result (effectTexts effects {}) = effects.mapM dialect.effectLine := by
  induction effects with
  | nil => rfl
  | cons effect rest ih =>
    have hrest := additive_effectTexts rest
    rw [effectTexts, Additive.result_bind fun _ => hrest.bind fun _ => .pure _, List.mapM_cons,
      ← ih, Dialect.effectLine]
    simp only [Additive.result_bind fun _ => .pure _, bind_assoc, pure_bind]
    rfl

/-- The test of a procedure, whatever packages it refers to. -/
def passage (procedure : Procedure) : Except Fault Passage := do
  let inputs ← Step.result (Go.valueTexts none procedure.inputs {})
  let texts ← Step.result (bodyTexts procedure inputs {})
  return frame procedure texts

theorem passage_procedure (scenario : Scenario) :
    passage scenario.procedure = dialect.passage scenario := by
  have heffects := additive_effectTexts scenario.fact.sideEffects
  rw [passage, Dialect.passage, Dialect.lines]
  simp only [bodyTexts, result_valueTexts, Scenario.procedure]
  cases houtput : scenario.fact.output with
  | none =>
    simp only [Dialect.outcomeLines, bind_assoc, pure_bind, Additive.result_bind fun _ => .pure _,
      result_effectTexts]
    rfl
  | some output =>
    simp only [Dialect.outcomeLines, bind_assoc, pure_bind,
      Additive.result_bind fun _ => heffects.bind fun _ => .pure _,
      Additive.result_bind fun _ => .pure _, result_effectTexts]
    rfl

theorem passage_of_added {procedure : Procedure} {file file' : File}
    (h : addProcedure procedure file = .ok () file') :
    ∃ made noted, passage procedure = .ok made ∧ Effect.Changes
      { noted, width := 1, passages := [made], functions := [functionName procedure.name] }
        file file' := by
  obtain ⟨inputs, noted, texts, noted', hinputs, htexts, hchanges⟩ := changes_of_ok h
  refine ⟨frame procedure texts, noted.union noted', ?_, hchanges⟩
  rw [passage, hinputs]
  change Step.result (bodyTexts procedure inputs {}) >>= _ = _
  rw [htexts]
  rfl

theorem tells_step {past : List Procedure} {procedure : Procedure} {file file' : File}
    (h : file.document.Tells join passage past)
    (hrun : TestTarget.procedure procedure file = .ok () file') :
    file'.package = file.package ∧ file'.document.Tells join passage (past ++ [procedure]) := by
  obtain ⟨made, noted, hmade, document, rfl, hsize, hshows⟩ := passage_of_added hrun
  exact ⟨rfl, h.add hmade hsize hshows⟩

/-- A file with the tests of facts shows their texts after its heading. -/
theorem render_of_tells {scenarios : List Scenario} {file : File}
    (h : file.document.Tells join passage (scenarios.map Scenario.procedure))
    (hroom : scenarios.length < Handle.count) :
    ∃ body, dialect.body scenarios = .ok body ∧ file.render = .ok ("package " ++ file.package ++
      "\n" ++ Go.importBlock file.imports.toList ++ body) := by
  obtain ⟨passages, hpassages, hshows⟩ := h.shows (by rwa [List.length_map])
  rw [List.forall₂_map_left_iff] at hpassages
  simp only [passage_procedure] at hpassages
  refine ⟨_, Dialect.body_of_passages hpassages, ?_⟩
  rw [File.render, Go.renderFile_eq_map, remainder_of_shows hshows, Go.heading_eq]
  rfl

end Testify

/-! ### Suites -/

namespace Suite

variable {suite : Suite}

theorem length_scenarios (suite : Suite) : suite.scenarios.length = suite.factCount := by
  rw [← length_allProcedures, ← map_procedure_scenarios, List.length_map]

/-- A suite that is compiled is valid, and all its procedures are added in order. -/
theorem procedures_of_compileTests {σ : Type} [TestTarget σ] {file file' : σ}
    (h : suite.compileTests file = .ok () file') :
    TestTarget.procedures (suite.scenarios.map Scenario.procedure) file = .ok () file' := by
  have hvalid := valid_of_compileTests h
  rw [compileTests, plan_of_check (check_eq_ok_iff.mpr hvalid)] at h
  rw [map_procedure_scenarios]
  exact h

theorem render_jest {module : String} {file : Jest.File}
    (h : suite.compileTests ({ module } : Jest.File) = .ok () file)
    (hroom : suite.factCount < Handle.count) :
    ∃ body, Jest.dialect.body suite.scenarios = .ok body ∧ file.render =
      .ok ("import \x7b TestModel \x7d from " ++ Text.quote module ++ ";\n" ++ body) := by
  have htells := TestTarget.procedures_invariant (σ := Jest.File)
    (P := fun past file => file.module = module ∧ file.document.Tells Jest.join Jest.passage past)
    (fun ⟨hmodule, htells⟩ hrun =>
      have hstep := Jest.tells_step htells hrun
      ⟨hstep.1.trans hmodule, hstep.2⟩)
    ⟨rfl, .start Jest.join rfl Jest.passage⟩ (procedures_of_compileTests h)
  obtain ⟨rfl, htells⟩ := htells
  rw [← length_scenarios] at hroom
  exact Jest.render_of_tells htells hroom

theorem render_testify {package : String} {file : Testify.File}
    (h : suite.compileTests ({ package } : Testify.File) = .ok () file)
    (hroom : suite.factCount < Handle.count) :
    ∃ body, Testify.dialect.body suite.scenarios = .ok body ∧ file.render = .ok ("package " ++
      package ++ "\n" ++ Go.importBlock file.imports.toList ++ body) := by
  have htells := TestTarget.procedures_invariant (σ := Testify.File)
    (P := fun past file => file.package = package ∧
      file.document.Tells Testify.join Testify.passage past)
    (fun ⟨hpackage, htells⟩ hrun =>
      have hstep := Testify.tells_step htells hrun
      ⟨hstep.1.trans hpackage, hstep.2⟩)
    ⟨rfl, .start Testify.join rfl Testify.passage⟩ (procedures_of_compileTests h)
  obtain ⟨rfl, htells⟩ := htells
  rw [← length_scenarios] at hroom
  exact Testify.render_of_tells htells hroom

/-- Tests are independent and ordered. A compiled suite shows the text of one test for each fact, in
the order of cases and facts, whatever other facts there are; and of facts that stand in a row, the
texts stand in a row as well. -/
theorem tests_independent (suite : Suite) (hroom : suite.factCount < Handle.count) :
    (∀ module file, suite.compileTests ({ module } : Jest.File) = .ok () file →
      ∃ body, Jest.dialect.body suite.scenarios = .ok body ∧ file.render =
        .ok ("import \x7b TestModel \x7d from " ++ Text.quote module ++ ";\n" ++ body)) ∧
    (∀ package file, suite.compileTests ({ package } : Testify.File) = .ok () file →
      ∃ packages body, Testify.dialect.body suite.scenarios = .ok body ∧ file.render =
        .ok ("package " ++ package ++ "\n" ++ Go.importBlock packages ++ body)) ∧
    ∀ (dialect : Dialect) (before changed after : List Scenario) (body : String),
      suite.scenarios = before ++ changed ++ after → dialect.body suite.scenarios = .ok body →
      ∃ first middle last, dialect.body before = .ok first ∧ dialect.body changed = .ok middle ∧
        dialect.body after = .ok last ∧ body = first ++ middle ++ last := by
  refine ⟨?_, ?_, ?_⟩
  · intro module file hcompile
    exact render_jest hcompile hroom
  · intro package file hcompile
    exact ⟨_, render_testify hcompile hroom⟩
  · intro dialect before changed after body hscenarios hbody
    rw [hscenarios, Dialect.body_append, Dialect.body_append, bind_assoc] at hbody
    obtain ⟨first, hfirst, hbody⟩ := Step.outcome_bind_eq_ok_iff.mp hbody
    rw [bind_assoc] at hbody
    obtain ⟨middle, hmiddle, hbody⟩ := Step.outcome_bind_eq_ok_iff.mp hbody
    rw [pure_bind] at hbody
    obtain ⟨last, hlast, hbody⟩ := Step.outcome_bind_eq_ok_iff.mp hbody
    exact ⟨first, middle, last, hfirst, hmiddle, hlast, (Except.ok.inj hbody).symm⟩

theorem tests_independent_tallied :
    ∃ file, Testify.tallied.compileTests ({ module := "./till" } : Jest.File) = .ok () file ∧
      file.render = .ok ("import \x7b TestModel \x7d from \"./till\";\n" ++
        "\ntest(\"TallyOnce\", () => \x7b\n\tconst model = new TestModel();\n" ++
        "\tconst output = model.Tally(String(5));\n" ++
        "\texpect(output).toEqual(\"require.Equal\");\n" ++
        "\texpect(model.rate).toEqual(NaN);\n\x7d);\n" ++
        "\ntest(\"OpenOnce\", () => \x7b\n\tconst model = new TestModel();\n" ++
        "\tmodel.Open();\n\x7d);\n") := by
  obtain ⟨_, file, hcompile, -⟩ := Step.exists_of_leaves (by decide +kernel :
    Step.leaves (fun _ => true)
      (Testify.tallied.compileTests ({ module := "./till" } : Jest.File)) = true)
  obtain ⟨body, hbody, hrender⟩ :=
    (tests_independent Testify.tallied (by decide +kernel)).1 "./till" file hcompile
  refine ⟨file, hcompile, hrender.trans ?_⟩
  have hspelled : (Jest.dialect.body Testify.tallied.scenarios).toOption = some
      ("\ntest(\"TallyOnce\", () => \x7b\n\tconst model = new TestModel();\n" ++
        "\tconst output = model.Tally(String(5));\n" ++
        "\texpect(output).toEqual(\"require.Equal\");\n" ++
        "\texpect(model.rate).toEqual(NaN);\n\x7d);\n" ++
        "\ntest(\"OpenOnce\", () => \x7b\n\tconst model = new TestModel();\n" ++
        "\tmodel.Open();\n\x7d);\n") := by
    decide +kernel
  rw [hbody] at hspelled
  obtain rfl := Option.some.inj hspelled
  rfl

end Suite

end Polyglot
