import Polyglot.Proofs.Go.Calls
import Polyglot.Proofs.Go.Heading
import Polyglot.Proofs.Parts
import Polyglot.Proofs.Printing

/-! # Needed packages

A value needs a package if something in it is spelled with the help of that package: the text of an
integer, or a double that has no literal. Spelling a value notes exactly the packages that it needs,
wherever in the value the need arises. So a file imports exactly what the values of its statements
need, however they were written.
-/

namespace Polyglot

/-! ### Needs -/

namespace Value

/-- The package is needed to spell something in the value. -/
def Needs (value : Value) (package : Package) : Prop :=
  (package = .strconv ∧ ∃ inner, value.Holds (.intToText inner)) ∨
    (package = .math ∧ ∃ bits, value.Holds (.float bits) ∧ Double.isFinite bits = false)

/-- The package is needed for the value itself, whatever its parts need. -/
def Calls : Value → Package → Prop
  | .intToText _, package => package = .strconv
  | .float bits, package => package = .math ∧ Double.isFinite bits = false
  | _, _ => False

theorem needs_iff_exists {value : Value} {package : Package} :
    value.Needs package ↔ ∃ part, value.Holds part ∧ part.Calls package := by
  constructor
  · rintro (⟨hpackage, inner, hholds⟩ | ⟨hpackage, bits, hholds, hbits⟩)
    · exact ⟨.intToText inner, hholds, hpackage⟩
    · exact ⟨.float bits, hholds, hpackage, hbits⟩
  · rintro ⟨part, hholds, hcalls⟩
    unfold Calls at hcalls
    split at hcalls
    · exact .inl ⟨hcalls, _, hholds⟩
    · exact .inr ⟨hcalls.1, _, hholds, hcalls.2⟩
    · exact hcalls.elim

/-- A value needs what it calls itself and what its direct parts need. -/
theorem needs_iff (value : Value) (package : Package) :
    value.Needs package ↔ value.Calls package ∨ ∃ child ∈ value.children, child.Needs package := by
  simp only [needs_iff_exists]
  constructor
  · rintro ⟨part, hholds, hcalls⟩
    rcases holds_iff.mp hholds with rfl | ⟨child, hchild, hholds⟩
    · exact .inl hcalls
    · exact .inr ⟨child, hchild, part, hholds, hcalls⟩
  · rintro (hcalls | ⟨child, hchild, part, hholds, hcalls⟩)
    · exact ⟨value, .refl, hcalls⟩
    · exact ⟨part, .head hchild hholds, hcalls⟩

theorem needs_float (bits : UInt64) (package : Package) :
    (Value.float bits).Needs package ↔ package = .math ∧ Double.isFinite bits = false := by
  rw [needs_iff]
  simp [Calls, children]

theorem needs_intToText (inner : Value) (package : Package) :
    (Value.intToText inner).Needs package ↔ package = .strconv ∨ inner.Needs package := by
  rw [needs_iff (.intToText inner)]
  simp [Calls, children]

end Value

/-- One of the values needs the package. -/
def NeededBy (values : List Value) (package : Package) : Prop :=
  ∃ value ∈ values, value.Needs package

@[simp] theorem neededBy_nil (package : Package) : ¬ NeededBy [] package := by
  simp [NeededBy]

@[simp] theorem neededBy_singleton (value : Value) (package : Package) :
    NeededBy [value] package ↔ value.Needs package := by
  simp [NeededBy]

theorem neededBy_append (first second : List Value) (package : Package) :
    NeededBy (first ++ second) package ↔ NeededBy first package ∨ NeededBy second package := by
  simp [NeededBy, or_and_right, exists_or]

/-- The values that a statement without a scope mentions. -/
def Action.values : Action → List Value
  | .assign target source => [target, source]
  | .declare _ value | .giveBack value => [value]
  | .appendValue array value => [array, value]
  | .appendArray array values => [array, values]
  | .removeValue array index => [array, index]
  | .mapPut map key value => [map, key, value]
  | .mapDelete map key => [map, key]

def Scope.values : Scope → List Value
  | .forEach array _ _ => [array]
  | .ifThen condition => [condition]

namespace Call

/-- The values of the statement that a call adds; declarations have none. -/
def values : Call → List Value
  | act _ action => action.values
  | enter _ scope => scope.values
  | branch _ condition => [condition]
  | model _ _ | enumeration _ _ | method _ _ _ _ => []

/-- Makes calls one after the other, as long as they succeed. -/
def runAll {σ : Type} [Target σ] : List Call → Step σ (List Reply)
  | [] => return []
  | call :: rest => do
    let reply ← call.run
    let replies ← runAll rest
    return reply :: replies

end Call

/-! ### Steps that note packages -/

/-- Whenever the step succeeds, the packages noted are those before and those that are needed. -/
def Notes {σ α : Type} (imports : σ → Imports) (needed : Package → Prop) (step : Step σ α) : Prop :=
  ∀ ⦃s a s'⦄, step s = .ok a s' → ∀ package,
    (imports s').contains package = true ↔ (imports s).contains package = true ∨ needed package

namespace Notes

variable {σ α β : Type} {imports : σ → Imports} {needed further : Package → Prop}

/-- A step that leaves the packages as they are. -/
theorem of_same {step : Step σ α} (h : ∀ ⦃s a s'⦄, step s = .ok a s' → imports s' = imports s) :
    Notes imports (NeededBy []) step := by
  intro s a s' hstep package
  rw [h hstep]
  simp

theorem pure (a : α) : Notes imports (NeededBy []) (Pure.pure a : Step σ α) := by
  apply of_same
  rintro s _ _ ⟨⟩
  rfl

theorem ofExcept (outcome : Except Fault α) :
    Notes imports (NeededBy []) (Step.ofExcept outcome : Step σ α) := by
  cases outcome with
  | ok a => exact pure a
  | error fault => rintro s _ _ ⟨⟩

theorem get : Notes imports (NeededBy []) (MonadState.get : Step σ σ) := by
  apply of_same
  rintro s _ _ ⟨⟩
  rfl

theorem congr {step : Step σ α} (h : Notes imports needed step)
    (hneeded : ∀ package, needed package ↔ further package) : Notes imports further step := by
  intro s a s' hstep package
  rw [h hstep package, hneeded]

theorem bind {first : Step σ α} {next : α → Step σ β} (hfirst : Notes imports needed first)
    (hnext : ∀ a, Notes imports further (next a)) :
    Notes imports (fun package => needed package ∨ further package) (first >>= next) := by
  intro s b s' h package
  obtain ⟨a, between, hrun, hrest⟩ := Step.bind_eq_ok_iff.mp h
  rw [hnext a hrest, hfirst hrun, or_assoc]

/-- A sequence whose first part notes nothing. -/
theorem after {first : Step σ α} {next : α → Step σ β} (hfirst : Notes imports (NeededBy []) first)
    (hnext : ∀ a, Notes imports needed (next a)) : Notes imports needed (first >>= next) :=
  (hfirst.bind hnext).congr fun package => by simp

/-- A sequence whose second part notes nothing. -/
theorem before {first : Step σ α} {next : α → Step σ β} (hfirst : Notes imports needed first)
    (hnext : ∀ a, Notes imports (NeededBy []) (next a)) : Notes imports needed (first >>= next) :=
  (hfirst.bind hnext).congr fun package => by simp

/-- A sequence of two parts that note what lists of values need. -/
theorem append {first : Step σ α} {next : α → Step σ β} {values others : List Value}
    (hfirst : Notes imports (NeededBy values) first)
    (hnext : ∀ a, Notes imports (NeededBy others) (next a)) :
    Notes imports (NeededBy (values ++ others)) (first >>= next) :=
  (hfirst.bind hnext).congr fun package => (neededBy_append values others package).symm

theorem single {step : Step σ α} {value : Value} (h : Notes imports value.Needs step) :
    Notes imports (NeededBy [value]) step :=
  h.congr fun package => (neededBy_singleton value package).symm

/-- A value that calls nothing itself needs what its direct parts need. -/
theorem of_children {step : Step σ α} {value : Value}
    (h : Notes imports (NeededBy value.children) step)
    (hcalls : ∀ package, ¬ value.Calls package) : Notes imports value.Needs step :=
  h.congr fun package => by rw [Value.needs_iff, or_iff_right (hcalls package), NeededBy]

end Notes

namespace Go

theorem notes_refer (package : Package) :
    Notes id (fun other => other = package) (refer package) := by
  rintro imports _ _ ⟨⟩ other
  simp [or_comm]

theorem notes_floatText (bits : UInt64) : Notes id (Value.float bits).Needs (floatText bits) := by
  rw [floatText, Decimal.finiteText?]
  cases hbits : Double.isFinite bits with
  | true => exact (Notes.pure _).congr fun package => by simp [Value.needs_float, hbits]
  | false =>
    refine ((notes_refer .math).before fun _ => .pure _).congr fun package => ?_
    simp [Value.needs_float, hbits]

mutual
/-- Spelling a value notes the packages that it needs. -/
theorem notes_valueText (receiver : Option String) :
    (value : Value) → Notes id value.Needs (valueText receiver value)
  | .null | .text _ | .int _ | .bool _ | .binding _ => by
    rw [valueText]
    exact Notes.of_children (.pure _) fun package => id
  | .float bits => by
    rw [valueText]
    exact notes_floatText bits
  | .array element elements => by
    rw [valueText]
    refine Notes.of_children (.after (.ofExcept (typeText (.array element))) fun _ => ?_)
      fun package => id
    exact (notes_valueTexts receiver elements).before fun _ => .pure _
  | .map key value entries => by
    rw [valueText]
    refine Notes.of_children (.after (.ofExcept (typeText (.map key value))) fun _ => ?_)
      fun package => id
    exact (notes_entryTexts receiver entries).before fun _ => .pure _
  | .ownField field => by
    cases receiver with
    | none =>
      rw [valueText]
      rintro imports _ _ ⟨⟩
    | some name =>
      rw [valueText]
      refine Notes.of_children ?_ fun package => id
      exact (notes_valueText (some name) field).single.before fun _ => .pure _
  | .modelField _ field => by
    rw [valueText]
    refine Notes.of_children ?_ fun package => id
    exact (notes_valueText receiver field).single.before fun _ => .pure _
  | .arrayElement source index => by
    rw [valueText]
    refine Notes.of_children ?_ fun package => id
    refine (notes_valueText receiver source).single.append fun _ => ?_
    exact (notes_valueText receiver index).single.before fun _ => .pure _
  | .mapElement source key => by
    rw [valueText]
    refine Notes.of_children ?_ fun package => id
    refine (notes_valueText receiver source).single.append fun _ => ?_
    exact (notes_valueText receiver key).single.before fun _ => .pure _
  | .combined left _ right => by
    rw [valueText]
    refine Notes.of_children ?_ fun package => id
    refine (notes_valueText receiver left).single.append fun _ => ?_
    exact (notes_valueText receiver right).single.before fun _ => .pure _
  | .intToText inner => by
    rw [valueText]
    refine ((notes_refer .strconv).bind fun _ =>
      (notes_valueText receiver inner).before fun _ => .pure _).congr fun package => ?_
    exact (Value.needs_intToText inner package).symm

theorem notes_valueTexts (receiver : Option String) :
    (values : List Value) → Notes id (NeededBy values) (valueTexts receiver values)
  | [] => .pure _
  | value :: rest => by
    rw [valueTexts]
    refine (notes_valueText receiver value).single.append fun _ => ?_
    exact (notes_valueTexts receiver rest).before fun _ => .pure _

theorem notes_entryTexts (receiver : Option String) : (entries : List (Value × Value)) →
    Notes id (NeededBy (entries.flatMap fun entry => [entry.1, entry.2]))
      (entryTexts receiver entries)
  | [] => .pure _
  | (key, value) :: rest => by
    rw [entryTexts]
    refine (notes_valueText receiver key).single.append fun _ => ?_
    refine (notes_valueText receiver value).single.append fun _ => ?_
    exact (notes_entryTexts receiver rest).before fun _ => .pure _
end

theorem notes_operandText (receiver : Option String) (value : Value) :
    Notes id value.Needs (operandText receiver value) :=
  (notes_valueText receiver value).before fun _ => .pure _

theorem notes_actionText (receiver : Option String) (action : Action) :
    Notes id (NeededBy action.values) (actionText receiver action) := by
  have hvalue := fun value => (notes_valueText receiver value).single
  cases action with
  | assign target source =>
    exact (hvalue target).append fun _ => (hvalue source).before fun _ => .pure _
  | declare name value => exact (hvalue value).before fun _ => .pure _
  | appendValue array value =>
    exact (hvalue array).append fun _ => (hvalue value).before fun _ => .pure _
  | appendArray array values =>
    exact (hvalue array).append fun _ => (hvalue values).before fun _ => .pure _
  | removeValue array index =>
    refine (hvalue array).append fun _ => ?_
    exact (notes_operandText receiver index).single.before fun _ => .pure _
  | mapPut map key value =>
    refine (hvalue map).append fun _ => (hvalue key).append fun _ => ?_
    exact (hvalue value).before fun _ => .pure _
  | mapDelete map key => exact (hvalue map).append fun _ => (hvalue key).before fun _ => .pure _
  | giveBack value => exact (hvalue value).before fun _ => .pure _

theorem notes_conditionHeader (receiver : Option String) (condition : Value) :
    Notes id (NeededBy [condition]) (conditionHeader receiver condition) :=
  (notes_valueText receiver condition).single.before fun _ => .pure _

theorem notes_scopeHeader (receiver : Option String) (scope : Scope) :
    Notes id (NeededBy scope.values) (scopeHeader receiver scope) := by
  cases scope with
  | forEach array indexName valueName =>
    exact (notes_valueText receiver array).single.before fun _ => .pure _
  | ifThen condition => exact notes_conditionHeader receiver condition

/-! ### Files -/

theorem notes_onDocument {α : Type} (step : Step Document α) :
    Notes File.imports (NeededBy []) (File.onDocument step) := by
  apply Notes.of_same
  intro file a file' h
  obtain ⟨_, -, rfl⟩ := Step.focus_eq_ok_iff.mp h
  rfl

theorem notes_onImports {α : Type} {needed : Package → Prop} {step : Step Imports α}
    (h : Notes id needed step) : Notes File.imports needed (File.onImports step) := by
  intro file a file' hrun
  obtain ⟨_, hstep, rfl⟩ := Step.focus_eq_ok_iff.mp hrun
  exact h hstep

theorem notes_modify {change : File → File} (h : ∀ file, (change file).imports = file.imports) :
    Notes File.imports (NeededBy []) (modify change : Step File Unit) := by
  apply Notes.of_same
  rintro file _ _ ⟨⟩
  exact h file

/-- A statement that is spelled for the receiver of its block, and then written. -/
theorem notes_statement {α : Type} {values : List Value} {block : Handle} {names : List String}
    {spelling : String → Step Imports String} {write : String → Step Document α}
    (h : ∀ receiver, Notes id (NeededBy values) (spelling receiver)) :
    Notes File.imports (NeededBy values) (do
      let receiver ← receiverOf (← get).document block
      checkBindings receiver names
      let text ← File.onImports (spelling receiver)
      File.onDocument (write text)) := by
  refine .after .get fun file => .after (.ofExcept (receiverOf file.document block)) fun _ => ?_
  refine .after (.ofExcept (checkBindings _ names)) fun _ => ?_
  exact (notes_onImports (h _)).before fun _ => notes_onDocument _

/-- A call notes the packages that its values need. -/
theorem notes_run (call : Call) :
    Notes File.imports (NeededBy call.values) (call.run : Step File Reply) := by
  cases call with
  | model name fields =>
    refine .after (.after (.ofExcept (paramTexts fields)) fun _ => ?_) fun _ => .pure _
    exact .after (notes_onDocument _) fun _ => notes_modify fun _ => rfl
  | enumeration name values => exact .after (notes_onDocument _) fun _ => .pure _
  | method owner name params returns =>
    refine .after (.after (.ofExcept (signatureText params returns)) fun _ => ?_) fun _ => .pure _
    refine .after (.ofExcept (checkBindings _ _)) fun _ => .after (notes_onDocument _) fun _ => ?_
    exact .after (notes_modify fun _ => rfl) fun _ => .pure _
  | act block action =>
    exact (notes_statement fun receiver => notes_actionText (some receiver) action).before
      fun _ => .pure _
  | enter block scope =>
    exact (notes_statement fun receiver => notes_scopeHeader (some receiver) scope).before
      fun _ => .pure _
  | branch block condition =>
    refine Notes.before ?_ fun _ => .pure _
    refine .after .get fun file => .after (.ofExcept (receiverOf file.document block)) fun _ => ?_
    exact (notes_onImports (notes_conditionHeader _ condition)).before fun _ => notes_onDocument _

/-- So do any number of calls. -/
theorem notes_runAll (calls : List Call) :
    Notes File.imports (NeededBy (calls.flatMap Call.values))
      (Call.runAll calls : Step File (List Reply)) := by
  induction calls with
  | nil => exact .pure _
  | cons call rest ih => exact (notes_run call).append fun _ => ih.before fun _ => .pure _

/-- A file that is rendered shows its heading and then its document. -/
theorem eq_heading_append_of_render {file file' : File} {text : String}
    (h : File.render file = .ok text file') :
    ∃ rest, remainder file.document = .ok rest ∧ text = heading file.package file.imports ++ rest := by
  cases hstray : file.firstStray? with
  | some stray =>
    rw [render_of_stray hstray] at h
    cases h
  | none =>
    rw [render_of_no_stray hstray, renderFile_eq_map] at h
    cases hrest : remainder file.document with
    | error fault =>
      rw [hrest] at h
      cases h
    | ok rest =>
      rw [hrest] at h
      cases h
      exact ⟨rest, rfl, rfl⟩

/-- Imports are exact: spelling a value notes what the value needs and nothing else, and a file
lists what the values of its statements need, in the order of the paths. -/
theorem imports_exact :
    (∀ receiver value imports text imports', valueText receiver value imports = .ok text imports' →
      ∀ package, imports'.contains package = true ↔
        imports.contains package = true ∨ value.Needs package) ∧
    ∀ name calls replies file file' text, Call.runAll calls ({ package := name } : File) =
        .ok replies file → File.render file = .ok text file' →
      ∃ packages rest, packages.Pairwise (fun first second => first.path < second.path) ∧
        (∀ package, package ∈ packages ↔
          ∃ call ∈ calls, ∃ value ∈ call.values, value.Needs package) ∧
        remainder file.document = .ok rest ∧
        text = "package " ++ file.package ++ "\n" ++ importBlock packages ++ rest := by
  refine ⟨?_, ?_⟩
  · intro receiver value imports text imports' hspelled
    exact notes_valueText receiver value hspelled
  · intro name calls replies file file' text hrun hrender
    obtain ⟨rest, hrest, htext⟩ := eq_heading_append_of_render hrender
    rw [heading_eq] at htext
    refine ⟨file.imports.toList, rest, file.imports.sorted, ?_, hrest, htext⟩
    intro package
    rw [Imports.mem_toList, notes_runAll calls hrun package]
    constructor
    · rintro (hfresh | ⟨value, hvalue, hneeds⟩)
      · simp at hfresh
      · obtain ⟨call, hcall, hvalue⟩ := List.mem_flatMap.mp hvalue
        exact ⟨call, hcall, value, hvalue, hneeds⟩
    · rintro ⟨call, hcall, value, hvalue, hneeds⟩
      exact .inr ⟨value, List.mem_flatMap.mpr ⟨call, hcall, hvalue⟩, hneeds⟩

/-- A method with statements in nested scopes; packages are needed deep in an array and in a
condition. -/
def counting : List Call :=
  [.model "Till" [⟨"total", .primitive .int⟩], .method "Till" "count" [] none,
    .act ⟨2⟩ (.declare "labels" (.array (.primitive .string) [.text "", .intToText (.int 7)])),
    .enter ⟨2⟩ (.forEach (.binding "labels") "i" ""),
    .act ⟨3⟩ (.removeValue (.binding "labels")
      (.combined (.binding "i") .add (.int 1))),
    .branch ⟨3⟩ (.combined (.binding "total") .lt
      (.combined (.float 0x7FF0000000000000) .mul (.float 0x3FF0000000000000)))]

/-- A set of packages with one that no value needs. -/
def printing : Imports :=
  ({} : Imports).insert ⟨"fmt"⟩

theorem imports_exact_counting :
    valueText none (.intToText (.float 0x7FF0000000000000)) printing =
      .ok "strconv.FormatInt(int64(math.Inf(1)), 10)"
        ((printing.insert .strconv).insert .math) ∧
    (Value.intToText (.float 0x7FF0000000000000)).Needs .math ∧
    ∃ replies file file' text, Call.runAll counting ({ package := "till" } : File) =
      .ok replies file ∧ File.render file = .ok text file' ∧
      ∃ packages rest, packages.Pairwise (fun first second => first.path < second.path) ∧
        (∀ package, package ∈ packages ↔
          ∃ call ∈ counting, ∃ value ∈ call.values, value.Needs package) ∧
        remainder file.document = .ok rest ∧
        text = "package " ++ file.package ++ "\n" ++ importBlock packages ++ rest := by
  have hspelled : valueText none (.intToText (.float 0x7FF0000000000000)) printing =
      .ok "strconv.FormatInt(int64(math.Inf(1)), 10)"
        ((printing.insert .strconv).insert .math) := rfl
  refine ⟨hspelled, ?_, ?_⟩
  · exact ((imports_exact.1 _ _ _ _ _ hspelled .math).mp (by decide)).resolve_left (by decide)
  · obtain ⟨replies, file, hrun, htest⟩ := Step.exists_of_leaves (by decide +kernel :
      Step.leaves (fun file => Step.leaves (fun _ => true) (File.render file))
        (Call.runAll counting ({ package := "till" } : File)) = true)
    obtain ⟨text, file', hrender, -⟩ := Step.exists_of_leaves htest
    exact ⟨replies, file, file', text, hrun, hrender,
      imports_exact.2 "till" counting replies file file' text hrun hrender⟩

end Go

end Polyglot
