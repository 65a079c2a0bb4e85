import Mathlib.Data.List.Nodup
import Mathlib.Logic.Function.Basic
import Polyglot.Target.Outline

/-! # Scripts

A script is a sequence of calls of a target that does not know the target's handles: each block
that it opens gets a label, and later calls go to the block with a given label. Calls of different
blocks may stand in any order, so that a body need not be finished before the next one is begun.

A script is scoped if every call goes to a block that is already open and every label stands for
one block only. All statements about runs are for scoped scripts.
-/

namespace Polyglot

/-- A name that a script gives to a block. -/
abbrev Label := Nat

/-- A call of a target in which blocks have labels. -/
inductive Order where
  | model (name : String) (fields : List Field)
  | enumeration (name : String) (values : List String)
  | method (model name : String) (params : List Field) (returns : Option Ty) (body : Label)
  | act (block : Label) (action : Action)
  | enter (block : Label) (scope : Scope) (body : Label)
  | branch (block : Label) (condition : Value) (thenBody elseBody : Label)
deriving DecidableEq

namespace Order

/-- The block that a call goes to; declarations go to none. -/
def block? : Order → Option Label
  | act block _ | enter block _ _ | branch block _ _ _ => some block
  | _ => none

/-- The blocks that a call opens. -/
def opened : Order → List Label
  | method _ _ _ _ body | enter _ _ body => [body]
  | branch _ _ thenBody elseBody => [thenBody, elseBody]
  | _ => []

/-- The call goes to a known block, and the labels it gives are new. -/
def Fits (known : List Label) (order : Order) : Prop :=
  (∀ block ∈ order.block?, block ∈ known) ∧ order.opened.Nodup ∧
    ∀ label ∈ order.opened, label ∉ known

instance (known : List Label) (order : Order) : Decidable (order.Fits known) :=
  inferInstanceAs (Decidable (_ ∧ _ ∧ _))

variable {σ : Type} [Target σ]

/-- Makes a call, given the handles of the open blocks; returns them with the new ones. -/
def run (handles : Label → Handle) : Order → Step σ (Label → Handle)
  | model name fields => do
    Target.model name fields
    return handles
  | enumeration name values => do
    Target.enumeration name values
    return handles
  | method owner name params returns body => do
    let block ← Target.method owner name params returns
    return Function.update handles body block
  | act block action => do
    Target.act (handles block) action
    return handles
  | enter block scope body => do
    let inner ← Target.enter (handles block) scope
    return Function.update handles body inner
  | branch block condition thenBody elseBody => do
    let (thenBlock, elseBlock) ← Target.branch (handles block) condition
    return Function.update (Function.update handles thenBody thenBlock) elseBody elseBlock

/-- The model to whose methods each block belongs, after a call. -/
def own (owner : Label → String) : Order → Label → String
  | method name _ _ _ body => Function.update owner body name
  | enter block _ body => Function.update owner body (owner block)
  | branch block _ thenBody elseBody =>
    Function.update (Function.update owner thenBody (owner block)) elseBody (owner block)
  | _ => owner

theorem own_of_not_mem {owner : Label → String} {order : Order} {label : Label}
    (h : label ∉ order.opened) : order.own owner label = owner label := by
  cases order <;> simp_all [own, opened, Function.update_of_ne]

/-- A statement's scopes belong to the method that it stands in. -/
theorem own_of_block (owner : Label → String) {order : Order} {block label : Label}
    (hb : order.block? = some block) (hl : label ∈ order.opened) :
    order.own owner label = owner block := by
  cases order with
  | branch _ _ thenBody elseBody =>
    simp only [block?, Option.some.injEq] at hb
    subst hb
    by_cases h : label = elseBody
    · subst h; simp [own]
    · simp_all [own, opened]
  | _ => simp_all [own, opened, block?]

/-- A call leaves the handles of other blocks alone. -/
theorem run_agree {handles handles' : Label → Handle} {order : Order} {s s' : σ} {label : Label}
    (h : order.run handles s = .ok handles' s') (hl : label ∉ order.opened) :
    handles' label = handles label := by
  cases order <;> simp only [run, Step.bind_eq_ok_iff, Step.pure_apply,
    EStateM.Result.ok.injEq] at h <;> obtain ⟨_, _, _, rfl, _⟩ := h <;>
    simp_all [opened, Function.update_of_ne]

end Order

namespace Script

/-- The blocks that a script opens, in order. -/
def opened (script : List Order) : List Label :=
  script.flatMap Order.opened

/-- Every call goes to an open block, and every label is given once. -/
def ScopedFrom (known : List Label) : List Order → Prop
  | [] => True
  | order :: rest => order.Fits known ∧ ScopedFrom (known ++ order.opened) rest

/-- A script that opens all the blocks that it goes to. -/
def Scoped (script : List Order) : Prop :=
  ScopedFrom [] script

instance decidableScopedFrom : (known : List Label) → (script : List Order) →
    Decidable (ScopedFrom known script)
  | _, [] => inferInstanceAs (Decidable True)
  | known, order :: rest =>
    have := decidableScopedFrom (known ++ order.opened) rest
    inferInstanceAs (Decidable (_ ∧ _))

instance (script : List Order) : Decidable (Scoped script) :=
  inferInstanceAs (Decidable (ScopedFrom [] script))

/-- The calls that go to a block. -/
def into (label : Label) (script : List Order) : List Order :=
  script.filter fun order => order.block? = some label

/-- The model to whose methods each block belongs. -/
def owners (owner : Label → String) (script : List Order) : Label → String :=
  script.foldl Order.own owner

section Append
variable {known : List Label} {label : Label}

@[simp] theorem opened_nil : opened [] = [] := rfl

@[simp] theorem opened_cons (order : Order) (rest : List Order) :
    opened (order :: rest) = order.opened ++ opened rest := by
  simp [opened]

@[simp] theorem opened_append (first second : List Order) :
    opened (first ++ second) = opened first ++ opened second := by
  simp [opened]

@[simp] theorem into_nil : into label [] = [] := rfl

theorem into_append (first second : List Order) :
    into label (first ++ second) = into label first ++ into label second := by
  simp [into]

theorem into_cons_of_eq {order : Order} {rest : List Order} (h : order.block? = some label) :
    into label (order :: rest) = order :: into label rest := by
  simp [into, h]

theorem into_cons_of_ne {order : Order} {rest : List Order} (h : order.block? ≠ some label) :
    into label (order :: rest) = into label rest := by
  simp [into, h]

@[simp] theorem owners_nil (owner : Label → String) : owners owner [] = owner := rfl

@[simp] theorem owners_cons (owner : Label → String) (order : Order) (rest : List Order) :
    owners owner (order :: rest) = owners (order.own owner) rest := rfl

theorem owners_append (owner : Label → String) (first second : List Order) :
    owners owner (first ++ second) = owners (owners owner first) second := by
  simp [owners]

theorem scopedFrom_append {first second : List Order} :
    ScopedFrom known (first ++ second) ↔
      ScopedFrom known first ∧ ScopedFrom (known ++ opened first) second := by
  induction first generalizing known with
  | nil => simp [ScopedFrom]
  | cons order rest ih => simp [ScopedFrom, ih, and_assoc]

theorem ScopedFrom.opened_not_mem {script : List Order} (h : ScopedFrom known script)
    (hl : label ∈ opened script) : label ∉ known := by
  induction script generalizing known with
  | nil => simp at hl
  | cons order rest ih =>
    rw [opened_cons, List.mem_append] at hl
    rcases hl with hl | hl
    · exact h.1.2.2 label hl
    · intro hk
      exact ih h.2 hl (List.mem_append_left _ hk)

/-- Calls go to blocks that were known before or are opened by the script. -/
theorem ScopedFrom.block_mem {script : List Order} (h : ScopedFrom known script) {order : Order}
    (ho : order ∈ script) (hb : order.block? = some label) : label ∈ known ++ opened script := by
  induction script generalizing known with
  | nil => simp at ho
  | cons first rest ih =>
    rcases List.mem_cons.mp ho with rfl | ho
    · exact List.mem_append_left _ (h.1.1 label hb)
    · simpa using ih h.2 ho

/-- Nothing goes to a block before it is opened. -/
theorem ScopedFrom.into_eq_nil {script : List Order} (h : ScopedFrom known script)
    (hl : label ∉ known ++ opened script) : into label script = [] := by
  rw [into, List.filter_eq_nil_iff]
  intro order ho hb
  exact hl (h.block_mem ho (by simpa using hb))

theorem owners_of_not_mem {owner : Label → String} {script : List Order}
    (h : label ∉ opened script) : owners owner script label = owner label := by
  induction script generalizing owner with
  | nil => rfl
  | cons order rest ih =>
    rw [opened_cons, List.mem_append, not_or] at h
    rw [owners_cons, ih h.2, Order.own_of_not_mem h.1]

end Append

/-! ### Runs -/

variable {σ : Type} [Target σ]

/-- Makes all calls of a script, up to the first fault. -/
def run (handles : Label → Handle) : List Order → Step σ (Label → Handle)
  | [] => return handles
  | order :: rest => do
    let handles ← order.run handles
    run handles rest

/-- The handles at the start of a script, none of which is used. -/
def noHandles : Label → Handle := fun _ => .root

theorem run_append (handles : Label → Handle) (first second : List Order) :
    (run handles (first ++ second) : Step σ (Label → Handle)) =
      run handles first >>= fun handles => run handles second := by
  induction first generalizing handles with
  | nil => simp [run]
  | cons order rest ih => simp [run, ih]

theorem run_agree {handles handles' : Label → Handle} {script : List Order} {s s' : σ}
    {label : Label} (h : run handles script s = .ok handles' s') (hl : label ∉ opened script) :
    handles' label = handles label := by
  induction script generalizing handles s with
  | nil =>
    simp only [run, Step.pure_apply, EStateM.Result.ok.injEq] at h
    rw [h.1]
  | cons order rest ih =>
    rw [opened_cons, List.mem_append, not_or] at hl
    rw [run, Step.bind_eq_ok_iff] at h
    obtain ⟨between, state, hFirst, hRest⟩ := h
    rw [ih hRest hl.2, Order.run_agree hFirst hl.1]

/-! ### Consecutive handles -/

/-- Gives labels the handles of blocks that are added to a table one after the other. -/
def bindAll (handles : Label → Handle) : (size : Nat) → List Label → Label → Handle
  | _, [] => handles
  | size, label :: rest => bindAll (Function.update handles label (.next size)) (size + 1) rest

theorem bindAll_of_not_mem {handles : Label → Handle} {size : Nat} {labels : List Label}
    {label : Label} (h : label ∉ labels) : bindAll handles size labels label = handles label := by
  induction labels generalizing handles size with
  | nil => rfl
  | cons first rest ih =>
    rw [List.mem_cons, not_or] at h
    rw [bindAll, ih h.2, Function.update_of_ne h.1]

theorem bindAll_of_getElem? {handles : Label → Handle} {size i : Nat} {labels : List Label}
    {label : Label} (hnodup : labels.Nodup) (h : labels[i]? = some label) :
    bindAll handles size labels label = .next (size + i) := by
  induction labels generalizing handles size i with
  | nil => simp at h
  | cons first rest ih =>
    obtain ⟨hfirst, hrest⟩ := List.nodup_cons.mp hnodup
    cases i with
    | zero =>
      simp only [List.getElem?_cons_zero, Option.some.injEq] at h
      subst h
      rw [bindAll, bindAll_of_not_mem hfirst, Function.update_self, Nat.add_zero]
    | succ i =>
      rw [List.getElem?_cons_succ] at h
      rw [bindAll, ih hrest h]
      congr 1
      omega

/-- What every successful call keeps holds at the end of a successful run. -/
theorem run_invariant (Holds : List Order → (Label → Handle) → σ → Prop)
    (hstep : ∀ {past handles s order handles' s'}, Scoped (past ++ [order]) →
      Holds past handles s → order.run handles s = .ok handles' s' →
      Holds (past ++ [order]) handles' s')
    (past : List Order) {script : List Order} {handles handles' : Label → Handle} {s s' : σ}
    (hscoped : Scoped (past ++ script)) (hstart : Holds past handles s)
    (h : run handles script s = .ok handles' s') : Holds (past ++ script) handles' s' := by
  induction script generalizing past handles s with
  | nil =>
    simp only [run, Step.pure_apply, EStateM.Result.ok.injEq] at h
    obtain ⟨rfl, rfl⟩ := h
    simpa using hstart
  | cons order rest ih =>
    rw [run, Step.bind_eq_ok_iff] at h
    obtain ⟨between, state, hFirst, hRest⟩ := h
    rw [List.append_cons] at hscoped ⊢
    have hfirst : Scoped (past ++ [order]) := (scopedFrom_append.mp hscoped).1
    exact ih (past ++ [order]) hscoped (hstep hfirst hstart hFirst) hRest

/-- If every call that is due succeeds, so does the run. -/
theorem run_progress {Holds : List Order → (Label → Handle) → σ → Prop}
    (past : List Order) {script : List Order} {handles : Label → Handle} {s : σ}
    (hstep : ∀ {done handles s order rest}, past ++ script = done ++ order :: rest →
      Holds done handles s → ∃ handles' s', order.run handles s = .ok handles' s' ∧
        Holds (done ++ [order]) handles' s')
    (hstart : Holds past handles s) :
    ∃ handles' s', run handles script s = .ok handles' s' ∧ Holds (past ++ script) handles' s' := by
  induction script generalizing past handles s with
  | nil => exact ⟨handles, s, rfl, by simpa using hstart⟩
  | cons order rest ih =>
    obtain ⟨between, state, hFirst, hHolds⟩ := hstep rfl hstart
    have hlater : ∀ {done handles s next after}, (past ++ [order]) ++ rest = done ++ next :: after →
        Holds done handles s → ∃ handles' s', next.run handles s = .ok handles' s' ∧
          Holds (done ++ [next]) handles' s' :=
      fun hsplit => hstep (by rw [← hsplit, List.append_cons])
    obtain ⟨handles', s', hRest, hEnd⟩ := ih (past ++ [order]) hlater hHolds
    refine ⟨handles', s', ?_, by simpa using hEnd⟩
    rw [run, Step.bind_of_ok hFirst, hRest]

end Script

end Polyglot
