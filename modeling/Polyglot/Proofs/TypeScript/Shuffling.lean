import Polyglot.Proofs.TypeScript.Rendering

/-! # The order of calls

A file does not depend on the order of calls as far as they have nothing to do with each other: a
method may be declared before or after its model, and filled at any time. Only the models and
enumerations, the methods of one model and the statements of one block have an order.
-/

namespace Polyglot

open Script

variable {ω : Type}

namespace Order

/-- The call declares a model or an enumeration. -/
def isType : Order → Bool
  | model _ _ | enumeration _ _ => true
  | _ => false

/-- The call declares a method of the given model. -/
def isMethodOf (model : String) : Order → Bool
  | method owner _ _ _ _ => owner = model
  | _ => false

end Order

namespace Section

/-- A model or an enumeration. -/
def isType : Section ω → Bool
  | model _ _ | enumeration _ _ => true
  | method _ _ _ _ _ => false

/-- A method of the given model. -/
def isMethodOf (model : String) : Section ω → Bool
  | method owner _ _ _ _ => owner = model
  | _ => false

theorem models_filter (parts : List (Section ω)) : models (parts.filter isType) = models parts := by
  induction parts with
  | nil => rfl
  | cons part rest ih =>
    simp only [models] at ih ⊢
    cases part <;> simp [List.filter_cons, isType, ih]

/-- Every method has its model if there are methods of declared models only. -/
theorem firstStray?_eq_none_iff {parts : List (Section ω)} : firstStray? parts = none ↔
    ∀ model, model ∉ models parts → parts.filter (isMethodOf model) = [] := by
  have hmethods : ∀ model, parts.filter (isMethodOf model) = [] ↔
      ∀ method ∈ methods parts, method.1 ≠ model := by
    intro model
    rw [List.filter_eq_nil_iff]
    constructor
    · rintro h method hmethod rfl
      obtain ⟨part, hpart, hsome⟩ := List.mem_filterMap.mp hmethod
      cases part with
      | method owner name params returns body =>
        obtain rfl := Option.some.inj hsome
        exact h _ hpart (decide_eq_true rfl)
      | _ => cases hsome
    · intro h part hpart hmethodOf
      cases part with
      | method owner name params returns body =>
        refine h (owner, name) (List.mem_filterMap.mpr ⟨_, hpart, rfl⟩) ?_
        simpa [isMethodOf] using hmethodOf
      | _ => cases hmethodOf
  rw [firstStray?, List.find?_eq_none]
  constructor
  · intro h model hmodel
    rw [hmethods]
    intro method hmethod heq
    have hdeclared := h method hmethod
    simp_all
  · intro h method hmethod hstray
    have hmodel : method.1 ∉ models parts := by simpa using hstray
    exact (hmethods method.1).mp (h method.1 hmodel) method hmethod rfl

/-- Two lists of declarations with the same models and enumerations, and the same methods of each
model. -/
structure Alike (first second : List (Section ω)) : Prop where
  types : first.filter isType = second.filter isType
  methods : ∀ model, first.filter (isMethodOf model) = second.filter (isMethodOf model)

theorem Alike.models_eq {first second : List (Section ω)} (h : Alike first second) :
    models first = models second := by
  rw [← models_filter first, h.types, models_filter]

/-- Either both have a method without a model, or none. -/
theorem Alike.firstStray?_eq_none_iff {first second : List (Section ω)} (h : Alike first second) :
    firstStray? first = none ↔ firstStray? second = none := by
  rw [Section.firstStray?_eq_none_iff, Section.firstStray?_eq_none_iff, h.models_eq]
  simp only [h.methods]

end Section

namespace Script

/-- Two scripts with the same calls. Models and enumerations have the same order in both, and so
have the methods of each model and the calls into each block. -/
structure Shuffled (first second : List Order) : Prop where
  types : first.filter Order.isType = second.filter Order.isType
  methods : ∀ model,
    first.filter (Order.isMethodOf model) = second.filter (Order.isMethodOf model)
  blocks : ∀ label, into label first = into label second

theorem filter_flatMap_declared {body : Label → List (Outline ω)} {keep : Order → Bool}
    {kept : Section ω → Bool} (h : ∀ order, ∀ part ∈ order.declared body, kept part = keep order)
    (script : List Order) :
    (script.flatMap (Order.declared body)).filter kept =
      (script.filter keep).flatMap (Order.declared body) := by
  induction script with
  | nil => rfl
  | cons order rest ih =>
    rw [List.flatMap_cons, List.filter_append, ih]
    by_cases hkeep : keep order = true
    · have hall : (order.declared body).filter kept = order.declared body :=
        List.filter_eq_self.mpr fun part hpart => (h order part hpart).trans hkeep
      rw [hall, List.filter_cons_of_pos hkeep, List.flatMap_cons]
    · have hnone : (order.declared body).filter kept = [] :=
        List.filter_eq_nil_iff.mpr fun part hpart => by rwa [h order part hpart]
      rw [hnone, List.filter_cons_of_neg hkeep, List.nil_append]

/-- Shuffled scripts describe the same declarations, up to their order. -/
theorem Shuffled.alike_sections {first second : List Order} (hfirst : Scoped first)
    (hsecond : Scoped second) (h : Shuffled first second) :
    Section.Alike (sections first : List (Section ω)) (sections second) := by
  have hbodies := bodies_eq_of_into_eq (ω := ω) hfirst hsecond h.blocks
  rw [hfirst.sections_eq, hsecond.sections_eq, hbodies]
  constructor
  · have hkept : ∀ (order : Order), ∀ part ∈ order.declared (bodies (ω := ω) second),
        part.isType = order.isType := by
      intro order part hpart
      cases order <;> simp_all [Order.declared, Order.isType, Section.isType]
    rw [filter_flatMap_declared hkept, filter_flatMap_declared hkept, h.types]
  · intro model
    have hkept : ∀ (order : Order), ∀ part ∈ order.declared (bodies (ω := ω) second),
        part.isMethodOf model = order.isMethodOf model := by
      intro order part hpart
      cases order <;> simp_all [Order.declared, Order.isMethodOf, Section.isMethodOf]
    rw [filter_flatMap_declared hkept, filter_flatMap_declared hkept, h.methods]

end Script

namespace TypeScript

theorem membersLines_filter (model : String) (parts : List (Section ω)) :
    membersLines model (parts.filter (Section.isMethodOf model)) = membersLines model parts := by
  induction parts with
  | nil => rfl
  | cons part rest ih =>
    rw [membersLines, membersLines] at ih
    cases part with
    | method owner _ _ _ _ =>
      by_cases howner : owner = model
      · simp [membersLines, Section.isMethodOf, howner, ih]
      · simp [membersLines, memberLines, Section.isMethodOf, howner, ih]
    | _ => simp [membersLines, memberLines, Section.isMethodOf, ih]

theorem paragraphs_filter (parts rest : List (Section ω)) :
    paragraphs parts (rest.filter Section.isType) = paragraphs parts rest := by
  induction rest with
  | nil => rfl
  | cons part rest ih =>
    cases part <;>
      simp [List.filter_cons, paragraphs, Section.isType, Section.models_filter, ih]

theorem paragraphs_congr {first second : List (Section ω)}
    (h : ∀ model, membersLines model first = membersLines model second)
    (rest : List (Section ω)) : paragraphs first rest = paragraphs second rest := by
  induction rest with
  | nil => rfl
  | cons part rest ih => cases part <;> simp [paragraphs, h, ih]

/-- The order in which methods of different models are declared cannot be seen in the text. -/
theorem print_eq_of_alike {first second : List (Section ω)} (h : Section.Alike first second) :
    print first = print second := by
  have hmembers : ∀ model, membersLines model first = membersLines model second := by
    intro model
    rw [← membersLines_filter model first, h.methods, membersLines_filter]
  rw [print, print, paragraphs_congr hmembers, ← paragraphs_filter second first, h.types,
    paragraphs_filter]

/-- If the calls of a script are shuffled, a method without a model stays one, and otherwise the
text stays the same. -/
theorem render_of_shuffled {first second : List Order} {handles handles' : Label → Handle}
    {file file' : File} (hfirst : Scoped first) (hsecond : Scoped second)
    (hshuffled : Shuffled first second)
    (hrun : run noHandles first ({} : File) = .ok handles file)
    (hrun' : run noHandles second ({} : File) = .ok handles' file')
    (hroom : file.document.blocks.size ≤ Handle.count)
    (hroom' : file'.document.blocks.size ≤ Handle.count) :
    (∃ model method model' method',
      Step.result (File.render file) = .error (.brokenReference model method) ∧
      Step.result (File.render file') = .error (.brokenReference model' method')) ∨
    ∃ text, Step.result (File.render file) = .ok text ∧
      Step.result (File.render file') = .ok text := by
  have halike : Section.Alike (sections first : List (Section Empty)) (sections second) :=
    hshuffled.alike_sections hfirst hsecond
  rw [render_eq_rendered (ω := Empty) hfirst hrun hroom,
    render_eq_rendered (ω := Empty) hsecond hrun' hroom', Section.rendered, Section.rendered]
  cases hstray : Section.firstStray? (sections first : List (Section Empty)) with
  | none =>
    rw [halike.firstStray?_eq_none_iff.mp hstray, print_eq_of_alike halike]
    exact .inr ⟨_, rfl, rfl⟩
  | some stray =>
    cases hstray' : Section.firstStray? (sections second : List (Section Empty)) with
    | none =>
      rw [halike.firstStray?_eq_none_iff.mpr hstray'] at hstray
      cases hstray
    | some stray' => exact .inl ⟨_, _, _, _, rfl, rfl⟩

/-- A method that is declared and filled before its model. -/
def methodFirst : List Order :=
  [.method "Till" "count" [] none 0, .act 0 (.declare "sum" (.int 0)),
    .enter 0 (.ifThen (.bool true)) 1, .act 1 (.giveBack .null), .act 0 (.giveBack (.int 1)),
    .model "Till" []]

/-- The same method, declared after its model; its inner scope is filled last. -/
def modelFirst : List Order :=
  [.model "Till" [], .method "Till" "count" [] none 0, .act 0 (.declare "sum" (.int 0)),
    .enter 0 (.ifThen (.bool true)) 1, .act 0 (.giveBack (.int 1)), .act 1 (.giveBack .null)]

theorem shuffled_methodFirst : Shuffled methodFirst modelFirst where
  types := by decide
  methods _ := rfl
  blocks label := by
    by_cases hbody : label = 0
    · subst hbody
      decide
    · by_cases hinner : label = 1
      · subst hinner
        decide
      · simp [into, methodFirst, modelFirst, Order.block?, Ne.symm hbody, Ne.symm hinner]

theorem render_of_methodFirst : Scoped methodFirst ∧ Scoped modelFirst ∧
    Shuffled methodFirst modelFirst ∧ ∃ handles file handles' file' text,
      run noHandles methodFirst ({} : File) = .ok handles file ∧
      run noHandles modelFirst ({} : File) = .ok handles' file' ∧
      Step.result (File.render file) = .ok text ∧ Step.result (File.render file') = .ok text := by
  have hfirst : Scoped methodFirst := by decide
  have hsecond : Scoped modelFirst := by decide
  obtain ⟨handles, file, hrun, htest⟩ := Step.exists_of_leaves (by decide +kernel :
    Step.leaves (fun file => decide (file.document.blocks.size ≤ Handle.count) &&
      Step.leaves (fun _ => true) (File.render file))
      (run noHandles methodFirst ({} : File)) = true)
  obtain ⟨handles', file', hrun', hroom'⟩ := Step.exists_of_leaves (by decide +kernel :
    Step.leaves (fun file => decide (file.document.blocks.size ≤ Handle.count))
      (run noHandles modelFirst ({} : File)) = true)
  rw [Bool.and_eq_true, decide_eq_true_iff] at htest
  refine ⟨hfirst, hsecond, shuffled_methodFirst, handles, file, handles', file', ?_⟩
  have hrender := render_of_shuffled hfirst hsecond shuffled_methodFirst hrun hrun' htest.1
    (of_decide_eq_true hroom')
  rcases hrender with ⟨model, method, -, -, herror, -⟩ | ⟨text, hok⟩
  · obtain ⟨_, _, hok, -⟩ := Step.exists_of_leaves htest.2
    rw [hok] at herror
    cases herror
  · exact ⟨text, hrun, hrun', hok⟩

end TypeScript

end Polyglot
