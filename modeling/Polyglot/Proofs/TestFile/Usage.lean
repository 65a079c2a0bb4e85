import Polyglot.Proofs.Go.Literals
import Polyglot.Proofs.Suite.Validity
import Polyglot.Proofs.TestFile.Testify

/-! # Used imports of Testify files

What the tests of a suite refer to, as a reader of the file sees it, against what the file imports.
Packages that literals need are imported exactly if they are referred to. The two packages for tests
are imported in any case, but the one for checks is referred to only if some fact expects something,
and the other one only if there are facts at all. So a file uses what it imports exactly if its
suite expects something.
-/

namespace Polyglot

namespace Go

/-! ### Lines -/

/-- None of the lines ends in a literal, and of the packages that files are spelled with they
together refer to the given ones. -/
structure ReadsLines (packages : Package → Prop) (texts : List String) : Prop where
  closed : ∀ text ∈ texts, Place.code.after text.toList = .code
  refers : ∀ package ∈ Package.known,
    (∃ text ∈ texts, refersTo text package = true) ↔ packages package

namespace ReadsLines

variable {packages others : Package → Prop} {texts : List String}

theorem nil : ReadsLines (NeededBy []) [] where
  closed text h := by simp at h
  refers package _ := by simp

theorem congr (h : ReadsLines packages texts)
    (hsame : ∀ package, packages package ↔ others package) : ReadsLines others texts where
  closed := h.closed
  refers package hknown := (h.refers package hknown).trans (hsame package)

theorem cons {text : String} (hfirst : Reads packages text) (hrest : ReadsLines others texts) :
    ReadsLines (fun package => packages package ∨ others package) (text :: texts) where
  closed other hother := by
    rcases List.mem_cons.mp hother with rfl | hother
    · exact hfirst.closed
    · exact hrest.closed other hother
  refers package hknown := by
    rw [← hfirst.refers package hknown, ← hrest.refers package hknown]
    simp

theorem append {second : List String} (hfirst : ReadsLines packages texts)
    (hsecond : ReadsLines others second) :
    ReadsLines (fun package => packages package ∨ others package) (texts ++ second) where
  closed text htext := by
    rcases List.mem_append.mp htext with htext | htext
    · exact hfirst.closed text htext
    · exact hsecond.closed text htext
  refers package hknown := by
    rw [← hfirst.refers package hknown, ← hsecond.refers package hknown]
    simp [or_and_right, exists_or]

end ReadsLines

theorem glue_newline : Glue "\n" :=
  glue_of_ends (by decide) (by decide) rfl rfl (by decide)

theorem Reads.indent {packages : Package → Prop} {text : String} (h : Reads packages text)
    (level : Nat) : Reads packages (Indent.tab.text level ++ text) := by
  cases level with
  | zero => simpa using h
  | succ level =>
    have hchars : (Indent.tab.text (level + 1)).toList = List.replicate (level + 1) '\t' := by
      simp [Indent.text, Indent.width, Indent.mark]
    have hlacks : ∀ c, c ≠ '\t' → c ∉ (Indent.tab.text (level + 1)).toList := by
      intro c hc hmem
      rw [hchars] at hmem
      exact hc (List.mem_replicate.mp hmem).2
    have hquote := hlacks '"' (by decide)
    refine .lead (bare_of_no_point hquote (hlacks '.' (by decide))) ?_ h
    apply closes_of_last (c := '\t') _ rfl
    rw [(Place.of_no_quote hquote).2, hchars]
    simp [List.getLast?_replicate]

/-- A line in a file ends all operands and refers to what its text refers to. -/
theorem Reads.display {packages : Package → Prop} {line : Line} (h : Reads packages line.text) :
    Reads packages line.display ∧ Closes line.display := by
  rw [Line.display]
  split
  · next hempty =>
    rw [hempty] at h
    have hline := h.close glue_newline
    rw [String.empty_append] at hline
    exact ⟨hline, glue_newline.closes⟩
  · have htext := h.indent line.level
    exact ⟨htext.close glue_newline, htext.closes_append glue_newline.closes⟩

/-- Lines are read one by one. -/
theorem ReadsLines.displayAll {packages : Package → Prop} {lines : List Line}
    (h : ReadsLines packages (lines.map Line.text)) : Reads packages (Line.displayAll lines) := by
  -- What is given speaks of all lines together, so the induction asks of each what it refers to.
  suffices hlines : Reads (fun package => ∃ line ∈ lines, refersTo line.text package = true)
      (Line.displayAll lines) by
    refine ⟨hlines.closed, fun package hknown => ?_⟩
    rw [hlines.refers package hknown]
    simpa using h.refers package hknown
  have hclosed : ∀ line ∈ lines, Place.code.after line.text.toList = .code := by
    simpa using h.closed
  clear h
  induction lines with
  | nil => exact (bare_of_no_point (by decide) (by decide)).congr fun package => by simp
  | cons line rest ih =>
    have hline : Reads (fun package => refersTo line.text package = true) line.text :=
      ⟨hclosed line List.mem_cons_self, fun package _ => Iff.rfl⟩
    have hrest := ih fun other hother => hclosed other (List.mem_cons_of_mem line hother)
    rw [Line.displayAll]
    exact (hline.display.1.then_append hrest hline.display.2).congr fun package => by simp

end Go

/-! ### Names of tests -/

theorem ofNat_ne_of_le {n : Nat} (h : 65 ≤ n) {sign : Char} (hpos : 0 < sign.toNat)
    (hlow : sign.toNat < 65) : sign ≠ Char.ofNat n := by
  intro heq
  by_cases hvalid : n.isValidChar
  · have hcode : (Char.ofNat n).toNat = n := by
      rw [Char.ofNat, dif_pos hvalid]
      rfl
    rw [← heq] at hcode
    omega
  · -- What is no code point becomes the character zero.
    rw [Char.ofNat, dif_neg hvalid] at heq
    rw [heq] at hpos
    exact absurd hpos (by decide)

/-- No sign is the upper case of something else. -/
theorem not_mem_uppercase {sign c : Char} (hpos : 0 < sign.toNat) (hlow : sign.toNat < 65)
    (hne : sign ≠ c) : sign ∉ Text.uppercase c := by
  have hruns : ∀ run ∈ Text.upperRuns, 65 ≤ (run.first : Int) + run.shift := by decide +kernel
  have hsequences : ∀ entry ∈ Text.upperSequences, ∀ code ∈ entry.2, 65 ≤ code := by decide +kernel
  rw [Text.uppercase, Text.mapCase]
  split
  · next run hfind =>
    have hrun := hruns run (List.mem_of_find?_eq_some hfind)
    have hcovers := List.find?_some hfind
    simp only [Text.CaseRun.covers, Bool.and_eq_true, decide_eq_true_eq] at hcovers
    have hle : 65 ≤ run.apply c.toNat := by
      rw [Text.CaseRun.apply]
      omega
    simpa using ofNat_ne_of_le hle hpos hlow
  · split
    · next entry hfind =>
      intro hmem
      obtain ⟨code, hcode, heq⟩ := List.mem_map.mp hmem
      have hle := hsequences entry (List.mem_of_find?_eq_some hfind) code hcode
      exact ofNat_ne_of_le hle hpos hlow heq.symm
    · simpa using hne

namespace Testify

open Go Document

theorem bare_functionName {name : String} (h : Word name) : Bare (functionName name) := by
  have hlacks : ∀ sign : Char, isWord sign = false → 0 < sign.toNat → sign.toNat < 65 →
      sign ∉ (functionName name).toList := by
    intro sign hsign hpos hlow hmem
    have hname := h.not_mem hsign
    have htest : sign ∉ "Test".toList := Word.not_mem (by decide) hsign
    rw [functionName] at hmem
    cases hchars : name.toList with
    | nil =>
      rw [hchars] at hmem
      exact htest hmem
    | cons first rest =>
      rw [hchars] at hmem hname
      rw [List.mem_cons, not_or] at hname
      simp only [String.toList_append, String.toList_ofList, List.mem_append] at hmem
      rcases hmem with hmem | hmem | hmem
      · exact htest hmem
      · exact not_mem_uppercase hpos hlow hname.1 hmem
      · exact hname.2 hmem
  exact bare_of_no_point (hlacks '"' (by decide) (by decide) (by decide))
    (hlacks '.' (by decide) (by decide) (by decide))

/-! ### Tests -/

/-- The literals of a test: its inputs, its output, then its expectations. -/
def literals (procedure : Procedure) : List Value :=
  procedure.inputs ++ procedure.output.toList ++ procedure.sideEffects.map SideEffect.expected

/-- The test checks something. -/
def Expects (procedure : Procedure) : Prop :=
  procedure.output ≠ none ∨ procedure.sideEffects ≠ []

/-- The package is one that the test of a procedure refers to. -/
def Uses (procedure : Procedure) (package : Package) : Prop :=
  package = .testing ∨ (package = .require ∧ Expects procedure) ∨
    NeededBy (literals procedure) package

/-- All names in the procedure are words, and its values are literals. -/
structure Worded (procedure : Procedure) : Prop where
  name : Word procedure.name
  method : Word procedure.method
  fields : ∀ effect ∈ procedure.sideEffects, Word effect.field
  literals : ∀ value ∈ literals procedure, value.Plain

theorem reads_expectation {packages others : Package → Prop} {expected subject : String}
    (hexpected : Reads packages expected) (hsubject : Reads others subject) :
    Reads (fun package => (package = .require ∨ packages package) ∨ others package)
      (expectation expected subject) := by
  have hcheck : Reads (fun package => package = .require) "require.EqualValues(t, " :=
    ⟨rfl, by decide +kernel⟩
  have hstart := hcheck.then_append hexpected (closes_of_last rfl rfl)
  exact (hstart.join glue_comma hsubject).close glue_parenthesis

theorem reads_effectTexts {effects : List SideEffect}
    (hfields : ∀ effect ∈ effects, Word effect.field)
    (hplain : ∀ value ∈ effects.map SideEffect.expected, value.Plain) {imports imports' : Imports}
    {texts : List String} (h : effectTexts effects imports = .ok texts imports') :
    ReadsLines (fun package => (package = .require ∧ effects ≠ []) ∨
      NeededBy (effects.map SideEffect.expected) package) texts := by
  induction effects generalizing imports texts with
  | nil =>
    cases h
    exact ReadsLines.nil.congr fun package => by simp
  | cons effect rest ih =>
    rw [effectTexts] at h
    obtain ⟨expected, _, hexpected, h⟩ := Step.bind_eq_ok_iff.mp h
    obtain ⟨others, _, hothers, h⟩ := Step.bind_eq_ok_iff.mp h
    cases h
    have hvalue := reads_valueText effect.expected (hplain _ List.mem_cons_self) hexpected
    have hmember := (hfields effect List.mem_cons_self).bare_member
    have hrest := ih (fun other hother => hfields other (List.mem_cons_of_mem _ hother))
      (fun value hmem => hplain value (List.mem_cons_of_mem _ hmem)) hothers
    refine (ReadsLines.cons (reads_expectation hvalue hmember) hrest).congr fun package => ?_
    have hmap : (effect :: rest).map SideEffect.expected =
        [effect.expected] ++ rest.map SideEffect.expected := rfl
    rw [hmap, neededBy_append, neededBy_singleton]
    grind [neededBy_nil]

theorem reads_callText {procedure : Procedure} (hmethod : Word procedure.method)
    {packages : Package → Prop} {inputs : List String}
    (hinputs : Reads packages (Text.commaSeparated inputs)) :
    Reads packages (callText procedure inputs) := by
  have hglue : Glue "(" := glue_of_ends (by decide) (by decide) rfl rfl (by decide)
  refine ((hmethod.bare_member.join hglue hinputs).close glue_parenthesis).congr fun package => ?_
  simp

theorem reads_bodyTexts {procedure : Procedure} (hworded : Worded procedure)
    {inputs : List String} {imports imports' imports'' : Imports}
    (hinputs : valueTexts none procedure.inputs {} = .ok inputs imports) {texts : List String}
    (h : bodyTexts procedure inputs imports' = .ok texts imports'') :
    ReadsLines (fun package => (package = .require ∧ Expects procedure) ∨
      NeededBy (literals procedure) package) texts := by
  have hplain : ∀ value ∈ procedure.inputs, value.Plain := fun value hvalue =>
    hworded.literals value (by simp [literals, hvalue])
  have hcall := reads_callText hworded.method (reads_valueTexts _ hplain hinputs)
  have hmodel : Bare ("model := " ++ testModel ++ "\x7b\x7d") :=
    bare_of_no_point (by decide) (by decide)
  have heffects : ∀ {imports imports' texts},
      effectTexts procedure.sideEffects imports = .ok texts imports' → _ := fun h =>
    reads_effectTexts hworded.fields
      (fun value hvalue => hworded.literals value (List.mem_append_right _ hvalue)) h
  rw [bodyTexts] at h
  cases houtput : procedure.output with
  | none =>
    rw [houtput] at h
    obtain ⟨effects, _, htexts, h⟩ := Step.bind_eq_ok_iff.mp h
    cases h
    refine (ReadsLines.cons hmodel (.cons hcall (heffects htexts))).congr fun package => ?_
    have hexpects : Expects procedure ↔ procedure.sideEffects ≠ [] := by simp [Expects, houtput]
    simp only [literals, houtput, hexpects, neededBy_append, Option.toList_none, neededBy_nil]
    grind
  | some output =>
    rw [houtput] at h
    obtain ⟨expected, _, hexpected, h⟩ := Step.bind_eq_ok_iff.mp h
    obtain ⟨effects, _, htexts, h⟩ := Step.bind_eq_ok_iff.mp h
    cases h
    have hvalue := reads_valueText output
      (hworded.literals output (by simp [literals, houtput])) hexpected
    have hassign : Bare "output := " := bare_of_no_point (by decide) (by decide)
    have hresult : Bare "output" := bare_of_no_point (by decide) (by decide)
    refine (ReadsLines.cons hmodel (.cons (.lead hassign (closes_of_last rfl rfl) hcall)
      (.cons (reads_expectation hvalue hresult) (heffects htexts)))).congr fun package => ?_
    have hexpects : Expects procedure := by simp [Expects, houtput]
    simp only [literals, houtput, hexpects, neededBy_append, Option.toList_some, neededBy_singleton,
      neededBy_nil]
    grind

/-- The passage of a test refers to what the test uses. -/
theorem reads_frame {procedure : Procedure} (hworded : Worded procedure) {inputs : List String}
    {imports imports' imports'' : Imports}
    (hinputs : valueTexts none procedure.inputs {} = .ok inputs imports) {texts : List String}
    (h : bodyTexts procedure inputs imports' = .ok texts imports'') :
    ReadsLines (Uses procedure) ((frame procedure texts).lines.map Line.text) := by
  have hheader : Reads (fun package => package = .testing)
      ("func " ++ functionName procedure.name ++ "(t *testing.T) \x7b") := by
    have hname : Bare ("func " ++ functionName procedure.name) :=
      .lead (bare_of_no_point (by decide) (by decide)) (closes_of_last rfl rfl)
        (bare_functionName hworded.name)
    have htest : Reads (fun package => package = .testing) "(t *testing.T) \x7b" :=
      ⟨rfl, by decide +kernel⟩
    exact (hname.append htest (opens_of_head rfl rfl)).congr fun package => by simp
  have hfooter : ReadsLines (NeededBy []) ["\x7d"] :=
    (ReadsLines.cons glue_closing.bare .nil).congr fun package => by simp
  have hbody := (reads_bodyTexts hworded hinputs h).append hfooter
  have htexts : (frame procedure texts).lines.map Line.text =
      ("func " ++ functionName procedure.name ++ "(t *testing.T) \x7b") :: (texts ++ ["\x7d"]) := by
    simp [frame, Passage.lines, Function.comp_def]
  rw [htexts]
  exact (ReadsLines.cons hheader hbody).congr fun package => by simp [Uses]

/-! ### Noted packages -/

theorem notes_effectTexts (effects : List SideEffect) :
    Notes id (NeededBy (effects.map SideEffect.expected)) (effectTexts effects) := by
  induction effects with
  | nil => exact .pure _
  | cons effect rest ih =>
    rw [effectTexts]
    refine (notes_valueText none effect.expected).single.append fun _ => ?_
    exact ih.before fun _ => .pure _

theorem notes_bodyTexts (procedure : Procedure) (inputs : List String) :
    Notes id (NeededBy (procedure.output.toList ++ procedure.sideEffects.map SideEffect.expected))
      (bodyTexts procedure inputs) := by
  have heffects := notes_effectTexts procedure.sideEffects
  rw [bodyTexts]
  cases procedure.output with
  | none => exact heffects.before fun _ => .pure _
  | some output =>
    refine (notes_valueText none output).single.append fun _ => ?_
    exact heffects.before fun _ => .pure _

/-! ### Runs -/

variable {procedure : Procedure} {file file' : File}

/-- A procedure that is accepted is spelled, and changes the file accordingly. -/
theorem changes_of_ok (h : addProcedure procedure file = .ok () file') :
    ∃ inputs noted texts noted', valueTexts none procedure.inputs {} = .ok inputs noted ∧
      bodyTexts procedure inputs {} = .ok texts noted' ∧
      Effect.Changes
        { noted := noted.union noted', width := 1, passages := [frame procedure texts]
          functions := [functionName procedure.name] } file file' := by
  have hchanges := (changes_addProcedure procedure file).1
  rw [h] at hchanges
  by_cases hnew : file.functions.contains (functionName procedure.name) = true
  · obtain ⟨_, hstop⟩ := addProcedure_of_repeated hnew
    rw [hstop] at h
    cases h
  · cases hinputs : valueTexts none procedure.inputs {} with
    | error fault noted =>
      rw [addProcedure_of_inputs hnew hinputs] at h
      cases h
    | ok inputs noted =>
      cases hbody : bodyTexts procedure inputs {} with
      | error fault noted' =>
        obtain ⟨_, hstop⟩ := addProcedure_of_body hnew hinputs hbody
        rw [hstop] at h
        cases h
      | ok texts noted' =>
        rw [effect, if_neg hnew, hinputs] at hchanges
        simp only [hbody] at hchanges
        exact ⟨inputs, noted, texts, noted', rfl, hbody, hchanges⟩

/-- The file holds the tests of the procedures. -/
structure Tested (package : String) (past : List Procedure) (file : File) : Prop where
  package_eq : file.package = package
  size_eq : file.document.blocks.size = past.length + 1
  imports : ∀ package, file.imports.contains package = true ↔
    (package = .testing ∨ package = .require) ∨ NeededBy (past.flatMap literals) package
  shows : past.length < Handle.count → ∃ passages, file.document.Shows join passages ∧
    ReadsLines (fun package => ∃ procedure ∈ past, Uses procedure package)
      ((passages.flatMap fun passage => .blank :: passage.lines).map Line.text)

theorem Tested.start (package : String) : Tested package [] { package } where
  package_eq := rfl
  size_eq := rfl
  imports package := by simp [or_comm]
  shows _ := ⟨[], ⟨[], .nil, rfl⟩, ReadsLines.nil.congr fun package => by simp⟩

theorem Tested.step {package : String} {past : List Procedure} (h : Tested package past file)
    (hworded : Worded procedure) (hrun : addProcedure procedure file = .ok () file') :
    Tested package (past ++ [procedure]) file' := by
  obtain ⟨inputs, noted, texts, noted', hinputs, hbody, document, rfl, hsize, hshows⟩ :=
    changes_of_ok hrun
  replace hsize : document.blocks.size = past.length + 2 := by
    rw [hsize, h.size_eq]
    rfl
  refine ⟨h.package_eq, ?_, ?_, ?_⟩
  · rw [List.length_append]
    exact hsize
  · intro package
    have hfirst := notes_valueTexts none procedure.inputs hinputs package
    have hsecond := notes_bodyTexts procedure inputs hbody package
    simp only [id, Imports.contains_empty, Bool.false_eq_true, false_or] at hfirst hsecond
    simp only [Imports.contains_union, Bool.or_eq_true, h.imports, hfirst, hsecond,
      List.flatMap_append, List.flatMap_singleton, neededBy_append, literals]
    grind
  · intro hroom
    rw [List.length_append, List.length_singleton] at hroom
    obtain ⟨passages, hpassages, hreads⟩ := h.shows (by omega)
    -- The new passage comes last, after a blank line.
    refine ⟨_, hshows passages hpassages ?_, ?_⟩
    · omega
    · have hblank : Bare Line.blank.text := bare_of_no_point (by decide) (by decide)
      have hnew := ReadsLines.cons hblank (reads_frame hworded hinputs hbody)
      rw [List.flatMap_append, List.flatMap_singleton, List.map_append, List.map_cons]
      exact (hreads.append hnew).congr fun package => by simp [or_and_right, exists_or]

/-- Tests that are added one after the other are held together. -/
theorem Tested.run {package : String} {past procedures : List Procedure}
    (h : Tested package past file) (hworded : ∀ procedure ∈ procedures, Worded procedure)
    (hrun : TestTarget.procedures procedures file = .ok () file') :
    Tested package (past ++ procedures) file' := by
  induction procedures generalizing past file with
  | nil =>
    cases hrun
    rwa [List.append_nil]
  | cons procedure rest ih =>
    rw [TestTarget.procedures] at hrun
    obtain ⟨_, between, hfirst, hrest⟩ := Step.bind_eq_ok_iff.mp hrun
    have hnext := h.step (hworded procedure List.mem_cons_self) hfirst
    rw [List.append_cons]
    exact ih hnext (fun other hother => hworded other (List.mem_cons_of_mem _ hother)) hrest

end Testify

/-! ### Suites -/

namespace Suite

/-- All names in the suite are words. -/
structure Worded (suite : Suite) : Prop where
  cases : ∀ case ∈ suite.cases, Go.Word case.name
  facts : ∀ case ∈ suite.cases, ∀ fact ∈ case.facts, Go.Word fact.name
  fields : ∀ case ∈ suite.cases, ∀ fact ∈ case.facts, ∀ effect ∈ fact.sideEffects,
    Go.Word effect.field
  models : ∀ case ∈ suite.cases, ∀ fact ∈ case.facts, ∀ value, fact.Mentions value →
    ∀ part, value.Holds part → ∀ name ∈ part.models, Go.Word name

/-- Some fact has an output or side effects. -/
def Expects (suite : Suite) : Prop :=
  ∃ case ∈ suite.cases, ∃ fact ∈ case.facts, fact.output ≠ none ∨ fact.sideEffects ≠ []

variable {suite : Suite}

theorem mem_allProcedures {procedure : Procedure} : procedure ∈ suite.allProcedures ↔
    ∃ case ∈ suite.cases, ∃ fact ∈ case.facts, case.procedure fact = procedure := by
  simp [allProcedures, Case.procedure, Case.procedureName]

theorem valid_of_compileTests {σ : Type} [TestTarget σ] {file file' : σ}
    (h : suite.compileTests file = .ok () file') : suite.Valid := by
  cases hcheck : suite.check with
  | ok passed => exact check_eq_ok_iff.mp hcheck
  | error defect =>
    rw [compileTests_of_defect hcheck] at h
    cases h

theorem worded_of_mem (hvalid : suite.Valid) (hworded : suite.Worded) {procedure : Procedure}
    (h : procedure ∈ suite.allProcedures) : Testify.Worded procedure := by
  obtain ⟨case, hcase, fact, hfact, rfl⟩ := mem_allProcedures.mp h
  refine ⟨?_, hworded.cases case hcase, hworded.fields case hcase fact hfact, ?_⟩
  · intro c hc
    change c ∈ (case.name ++ fact.name).toList at hc
    rw [String.toList_append] at hc
    rcases List.mem_append.mp hc with hc | hc
    · exact hworded.cases case hcase c hc
    · exact hworded.facts case hcase fact hfact c hc
  · intro value hvalue part hholds
    have hmentions : fact.Mentions value := Fact.mem_literals.mp hvalue
    refine ⟨?_, hworded.models case hcase fact hfact value hmentions part hholds⟩
    have hfree := hvalid.literals case hcase fact hfact value hmentions part hholds
    revert hfree
    cases part.kind <;> simp [Kind.isReference]

end Suite

namespace Testify

open Go

/-- A compiled suite is rendered, and the text after the heading refers to what its tests use. -/
theorem render_of_compileTests {package : String} {suite : Suite} {file : File}
    (hcompile : suite.compileTests ({ package } : File) = .ok () file)
    (hroom : suite.factCount < Handle.count) (hworded : suite.Worded) :
    Tested package suite.allProcedures file ∧ ∃ body,
      file.render = .ok ("package " ++ package ++ "\n" ++ importBlock file.imports.toList ++ body) ∧
      Reads (fun package => ∃ procedure ∈ suite.allProcedures, Uses procedure package) body := by
  have hvalid := Suite.valid_of_compileTests hcompile
  rw [Suite.compileTests, Suite.plan_of_check (Suite.check_eq_ok_iff.mpr hvalid)] at hcompile
  have htested := (Tested.start package).run
    (fun procedure hprocedure => Suite.worded_of_mem hvalid hworded hprocedure) hcompile
  rw [List.nil_append] at htested
  rw [← Suite.length_allProcedures] at hroom
  obtain ⟨passages, hshows, hreads⟩ := htested.shows hroom
  refine ⟨htested, _, ?_, hreads.displayAll⟩
  rw [File.render, renderFile_eq_map, remainder_of_shows hshows, htested.package_eq, heading_eq]
  rfl

theorem not_neededBy_require (values : List Value) : ¬ NeededBy values .require := by
  rintro ⟨_, _, ⟨hpackage, _⟩ | ⟨hpackage, _⟩⟩ <;> exact absurd hpackage (by decide)

/-- Tests use no other packages than those that files are spelled with. -/
theorem known_of_uses {procedure : Procedure} {package : Package} (h : Uses procedure package) :
    package ∈ Package.known := by
  rcases h with rfl | ⟨rfl, _⟩ | ⟨_, _, ⟨rfl, _⟩ | ⟨rfl, _⟩⟩ <;> decide

/-- What is used besides the packages for tests is what some literal needs. -/
theorem imported_iff {procedures : List Procedure} {imported : Package} :
    (imported = .testing ∨ imported = .require) ∨
        NeededBy (procedures.flatMap literals) imported ↔
      imported = .testing ∨ imported = .require ∨
        ∃ procedure ∈ procedures, Uses procedure imported := by
  rw [or_assoc]
  constructor
  · rintro (htests | htests | ⟨value, hvalue, hneeds⟩)
    · exact .inl htests
    · exact .inr (.inl htests)
    · obtain ⟨procedure, hmem, hvalue⟩ := List.mem_flatMap.mp hvalue
      exact .inr (.inr ⟨procedure, hmem, .inr (.inr ⟨value, hvalue, hneeds⟩)⟩)
  · rintro (htests | htests | ⟨procedure, hmem, htests | ⟨htests, _⟩ | ⟨value, hvalue, hneeds⟩⟩)
    · exact .inl htests
    · exact .inr (.inl htests)
    · exact .inl htests
    · exact .inr (.inl htests)
    · exact .inr (.inr ⟨value, List.mem_flatMap.mpr ⟨procedure, hmem, hvalue⟩, hneeds⟩)

/-- The file imports the packages for tests and those that its body refers to. -/
theorem Tested.mem_imports_iff {package : String} {procedures : List Procedure} {file : File}
    (h : Tested package procedures file) {body : String}
    (hreads : Reads (fun package => ∃ procedure ∈ procedures, Uses procedure package) body)
    (imported : Package) : imported ∈ file.imports.toList ↔ imported ∈ Package.known ∧
      (imported = .testing ∨ imported = .require ∨ refersTo body imported = true) := by
  rw [Imports.mem_toList, h.imports, imported_iff]
  constructor
  · rintro (rfl | rfl | ⟨procedure, hmem, huses⟩)
    · exact ⟨by decide, .inl rfl⟩
    · exact ⟨by decide, .inr (.inl rfl)⟩
    · have hknown := known_of_uses huses
      exact ⟨hknown, .inr (.inr ((hreads.refers imported hknown).mpr ⟨procedure, hmem, huses⟩))⟩
  · rintro ⟨hknown, htests | htests | hrefers⟩
    · exact .inl htests
    · exact .inr (.inl htests)
    · exact .inr (.inr ((hreads.refers imported hknown).mp hrefers))

/-- Some test refers to the package for checks exactly if some fact expects something. -/
theorem exists_uses_require_iff {suite : Suite} :
    (∃ procedure ∈ suite.allProcedures, Uses procedure .require) ↔ suite.Expects := by
  constructor
  · rintro ⟨procedure, hmem, htest | ⟨_, hexpects⟩ | hneeded⟩
    · exact absurd htest (by decide)
    · obtain ⟨case, hcase, fact, hfact, rfl⟩ := Suite.mem_allProcedures.mp hmem
      exact ⟨case, hcase, fact, hfact, hexpects⟩
    · exact absurd hneeded (not_neededBy_require _)
  · rintro ⟨case, hcase, fact, hfact, hexpects⟩
    exact ⟨case.procedure fact, Suite.mem_allProcedures.mpr ⟨case, hcase, fact, hfact, rfl⟩,
      .inr (.inl ⟨rfl, hexpects⟩)⟩

/-- The tests of a suite refer to every package that they import, and import every package that they
refer to, exactly if some fact expects something. Without that, the package for checks is imported
in vain, and without facts so is the other one. -/
theorem imports_used_iff {package : String} {suite : Suite} {file : File}
    (hcompile : suite.compileTests ({ package } : File) = .ok () file)
    (hroom : suite.factCount < Handle.count) (hworded : suite.Worded) :
    ∃ packages body,
      file.render = .ok ("package " ++ package ++ "\n" ++ importBlock packages ++ body) ∧
      (∀ imported, imported ∈ packages ↔ imported ∈ Package.known ∧
        (imported = .testing ∨ imported = .require ∨ refersTo body imported = true)) ∧
      (refersTo body .testing = true ↔ 0 < suite.factCount) ∧
      (refersTo body .require = true ↔ suite.Expects) ∧
      ((∀ imported ∈ Package.known, imported ∈ packages ↔ refersTo body imported = true) ↔
        suite.Expects) := by
  obtain ⟨htested, body, hrender, hreads⟩ := render_of_compileTests hcompile hroom hworded
  have himports := htested.mem_imports_iff hreads
  have htesting : refersTo body .testing = true ↔ 0 < suite.factCount := by
    rw [hreads.refers _ (by decide), ← Suite.length_allProcedures, List.length_pos_iff_exists_mem]
    simp [Uses]
  have hrequire : refersTo body .require = true ↔ suite.Expects := by
    rw [hreads.refers _ (by decide)]
    exact exists_uses_require_iff
  refine ⟨file.imports.toList, body, hrender, himports, htesting, hrequire, ?_⟩
  constructor
  · intro hused
    have hknown : Package.require ∈ Package.known := by decide
    exact hrequire.mp ((hused _ hknown).mp ((himports _).mpr ⟨hknown, .inr (.inl rfl)⟩))
  · intro hexpects imported hknown
    have hfacts : 0 < suite.factCount := by
      obtain ⟨case, hcase, fact, hfact, _⟩ := hexpects
      rw [← Suite.length_allProcedures]
      exact List.length_pos_of_mem (Suite.mem_allProcedures.mpr ⟨case, hcase, fact, hfact, rfl⟩)
    rw [himports]
    constructor
    · rintro ⟨-, rfl | rfl | hrefers⟩
      · exact htesting.mpr hfacts
      · exact hrequire.mpr hexpects
      · exact hrefers
    · intro hrefers
      exact ⟨hknown, .inr (.inr hrefers)⟩

/-- A fact that expects a text with the name of a package in it and a rate that is no number, beside
one that expects nothing. -/
def tallied : Suite where
  cases :=
    [{ name := "Tally"
       parameters := [{ name := "label", ty := .primitive .string }]
       returns := some (.primitive .string)
       facts :=
        [{ name := "Once"
           inputs := [.intToText (.int 5)]
           output := some (.text "require.Equal")
           sideEffects := [{ field := "rate", expected := .float 0x7FF8000000000000 }] }] },
     { name := "Open", facts := [{ name := "Once" }] }]

theorem worded_tallied : tallied.Worded := by
  refine ⟨by decide, by decide, by decide, ?_⟩
  intro case hcase fact hfact value hvalue part hholds
  have hliterals : value ∈ tallied.cases.flatMap (·.facts.flatMap Fact.literals) :=
    List.mem_flatMap.mpr
      ⟨case, hcase, List.mem_flatMap.mpr ⟨fact, hfact, Fact.mem_literals.mpr hvalue⟩⟩
  have hleaf : ∀ leaf : Value, leaf.children = [] → leaf.Holds part → part = leaf := by
    intro leaf hchildren hholds
    rw [Value.holds_iff, hchildren] at hholds
    simpa using hholds
  change value ∈ [.intToText (.int 5), .text "require.Equal", .float 0x7FF8000000000000]
    at hliterals
  simp only [List.mem_cons, List.not_mem_nil, or_false] at hliterals
  rcases hliterals with rfl | rfl | rfl
  · rcases Value.holds_iff.mp hholds with rfl | ⟨child, hchild, hholds⟩
    · simp [Value.models]
    · obtain rfl := List.mem_singleton.mp hchild
      simp [hleaf _ rfl hholds, Value.models]
  · simp [hleaf _ rfl hholds, Value.models]
  · simp [hleaf _ rfl hholds, Value.models]

theorem imports_used_iff_tallied :
    ∃ file, tallied.compileTests ({ package := "till" } : File) = .ok () file ∧
      ∃ packages body,
        file.render = .ok ("package till\n" ++ importBlock packages ++ body) ∧
        (∀ imported ∈ packages, imported ∈ Package.known) ∧
        ∀ imported ∈ Package.known, imported ∈ packages ↔ refersTo body imported = true := by
  have hexpects : tallied.Expects :=
    ⟨_, List.mem_cons_self, _, List.mem_cons_self, .inl (by simp)⟩
  obtain ⟨_, file, hcompile, -⟩ := Step.exists_of_leaves (by decide +kernel :
    Step.leaves (fun _ => true) (tallied.compileTests ({ package := "till" } : File)) = true)
  obtain ⟨packages, body, hrender, himports, -, -, hused⟩ :=
    imports_used_iff hcompile (by decide +kernel) worded_tallied
  exact ⟨file, hcompile, packages, body, hrender,
    fun imported himported => ((himports imported).mp himported).1, hused.mpr hexpects⟩

/-- A fact that expects nothing. -/
def opened : Suite where
  cases := [{ name := "Open", facts := [{ name := "Once" }] }]

/-- The package for checks is imported although no test checks anything, and both packages are
imported although there are no tests. -/
theorem imports_unused :
    (∃ file body, opened.compileTests ({ package := "till" } : File) = .ok () file ∧
      file.render = .ok ("package till\n" ++ importBlock [.require, .testing] ++ body) ∧
      body = "\nfunc TestOpenOnce(t *testing.T) \x7b\n\tmodel := TestModel\x7b\x7d\n" ++
        "\tmodel.Open()\n\x7d\n" ∧
      refersTo body .require = false) ∧
    ∃ file, ({} : Suite).compileTests ({ package := "till" } : File) = .ok () file ∧
      file.render = .ok ("package till\n" ++ importBlock [.require, .testing]) := by
  refine ⟨⟨_, _, rfl, ?_, rfl, ?_⟩, _, rfl, ?_⟩ <;> decide +kernel

end Testify

end Polyglot
