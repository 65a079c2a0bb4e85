import Polyglot.Target.Outline

/-! # Clauses

A clause is a declaration or a statement without what is nested in it. The clauses of an outline
are all that it consists of, in the order in which a target is called to write it.
-/

namespace Polyglot

/-- A declaration or a statement by itself. A statement knows the model to whose methods it
belongs. -/
inductive Clause where
  | model (name : String) (fields : List Field)
  | enumeration (name : String) (values : List String)
  | method (model name : String) (params : List Field) (returns : Option Ty)
  | act (model : String) (action : Action)
  | enter (model : String) (scope : Scope)
  | branch (model : String) (condition : Value)
deriving DecidableEq

namespace Outline

variable {ω : Type}

mutual
/-- The clauses of a statement in a method of the given model. -/
def clauses (model : String) : Outline ω → List Clause
  | gap _ => []
  | act action => [.act model action]
  | enter scope body => .enter model scope :: clausesAll model body
  | branch condition thenBody elseBody =>
    .branch model condition :: (clausesAll model thenBody ++ clausesAll model elseBody)

def clausesAll (model : String) : List (Outline ω) → List Clause
  | [] => []
  | first :: rest => clauses model first ++ clausesAll model rest
end

theorem clausesAll_append (model : String) (first second : List (Outline ω)) :
    clausesAll model (first ++ second) = clausesAll model first ++ clausesAll model second := by
  induction first with
  | nil => rfl
  | cons outline rest ih => simp [clausesAll, ih]

mutual
/-- Nothing is missing in a statement. -/
def Whole : Outline ω → Prop
  | gap _ => False
  | act _ => True
  | enter _ body => WholeAll body
  | branch _ thenBody elseBody => WholeAll thenBody ∧ WholeAll elseBody

def WholeAll : List (Outline ω) → Prop
  | [] => True
  | first :: rest => Whole first ∧ WholeAll rest
end

theorem wholeAll_append {first second : List (Outline ω)} :
    WholeAll (first ++ second) ↔ WholeAll first ∧ WholeAll second := by
  induction first with
  | nil => simp [WholeAll]
  | cons outline rest ih => simp [WholeAll, ih, and_assoc]

theorem wholeAll_iff {outlines : List (Outline ω)} :
    WholeAll outlines ↔ ∀ outline ∈ outlines, outline.Whole := by
  induction outlines with
  | nil => simp [WholeAll]
  | cons first rest ih => simp [WholeAll, ih]

variable {σ : Type} [Target σ] {fault : ω → Fault}

mutual
/-- Only a whole statement can be written. -/
theorem whole_of_write {block : Handle} {s s' : σ} :
    (outline : Outline ω) → outline.write fault block s = .ok () s' → outline.Whole
  | gap _, h => by simp [write] at h
  | act _, _ => trivial
  | enter _ body, h => by
    rw [write, Step.bind_eq_ok_iff] at h
    obtain ⟨_, _, _, hBody⟩ := h
    exact wholeAll_of_writeAll body hBody
  | branch _ thenBody elseBody, h => by
    rw [write, Step.bind_eq_ok_iff] at h
    obtain ⟨_, _, _, hBodies⟩ := h
    rw [Step.bind_eq_ok_iff] at hBodies
    obtain ⟨_, _, hThen, hElse⟩ := hBodies
    exact ⟨wholeAll_of_writeAll thenBody hThen, wholeAll_of_writeAll elseBody hElse⟩

theorem wholeAll_of_writeAll {block : Handle} {s s' : σ} :
    (outlines : List (Outline ω)) → writeAll fault block outlines s = .ok () s' →
      WholeAll outlines
  | [], _ => trivial
  | first :: rest, h => by
    rw [writeAll, Step.bind_eq_ok_iff] at h
    obtain ⟨_, _, hFirst, hRest⟩ := h
    exact ⟨whole_of_write first hFirst, wholeAll_of_writeAll rest hRest⟩
end

end Outline

namespace Section

variable {ω : Type}

/-- The clauses of a declaration. -/
def clauses : Section ω → List Clause
  | model name fields => [.model name fields]
  | enumeration name values => [.enumeration name values]
  | method owner name params returns body =>
    .method owner name params returns :: Outline.clausesAll owner body

/-- Nothing is missing in a declaration. -/
def Whole : Section ω → Prop
  | model _ _ => True
  | enumeration _ _ => True
  | method _ _ _ _ body => Outline.WholeAll body

variable {σ : Type} [Target σ] {fault : ω → Fault}

/-- Only whole declarations can be written. -/
theorem whole_of_writeAll {sections : List (Section ω)} {s s' : σ}
    (h : writeAll fault sections s = .ok () s') : ∀ part ∈ sections, part.Whole := by
  induction sections generalizing s with
  | nil => simp
  | cons first rest ih =>
    rw [writeAll, Step.bind_eq_ok_iff] at h
    obtain ⟨_, _, hFirst, hRest⟩ := h
    intro part hpart
    rcases List.mem_cons.mp hpart with rfl | hpart
    · cases part with
      | model _ _ => trivial
      | enumeration _ _ => trivial
      | method _ _ _ _ body =>
        rw [write, Step.bind_eq_ok_iff] at hFirst
        obtain ⟨_, _, _, hBody⟩ := hFirst
        exact Outline.wholeAll_of_writeAll body hBody
    · exact ih hRest part hpart

end Section

end Polyglot
