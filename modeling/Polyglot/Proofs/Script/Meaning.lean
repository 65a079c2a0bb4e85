import Polyglot.Proofs.Script.Basic

/-! # What a script describes

The outline that a script describes, by recursion on the script alone: what goes into a block is
what later calls put there. Two scripts with the same calls into every block describe the same
bodies, in whatever order the calls to different blocks stand.
-/

namespace Polyglot

variable {ω : Type}

namespace Order

/-- The statement that a call adds to its block, given what goes into the scopes that it opens. -/
def outline (body : Label → List (Outline ω)) : Order → List (Outline ω)
  | act _ action => [.act action]
  | enter _ scope inner => [.enter scope (body inner)]
  | branch _ condition thenBody elseBody => [.branch condition (body thenBody) (body elseBody)]
  | _ => []

/-- The declaration that a call makes, given what goes into its body. -/
def declared (body : Label → List (Outline ω)) : Order → List (Section ω)
  | model name fields => [.model name fields]
  | enumeration name values => [.enumeration name values]
  | method owner name params returns inner => [.method owner name params returns (body inner)]
  | _ => []

theorem outline_congr {body body' : Label → List (Outline ω)} {order : Order}
    (h : ∀ label ∈ order.opened, body label = body' label) :
    order.outline body = order.outline body' := by
  cases order <;> simp_all [outline, opened]

theorem declared_congr {body body' : Label → List (Outline ω)} {order : Order}
    (h : ∀ label ∈ order.opened, body label = body' label) :
    order.declared body = order.declared body' := by
  cases order <;> simp_all [declared, opened]

end Order

namespace Script

/-- What a script puts into each block. -/
def bodies : List Order → Label → List (Outline ω)
  | [], _ => []
  | order :: rest, label =>
    (if order.block? = some label then order.outline (bodies rest) else []) ++ bodies rest label

/-- The declarations that a script makes, with everything that it puts into them. -/
def sections : List Order → List (Section ω)
  | [] => []
  | order :: rest => order.declared (bodies rest) ++ sections rest

variable {known : List Label} {label : Label}

theorem bodies_cons_of_eq {order : Order} {rest : List Order} (h : order.block? = some label) :
    (bodies (order :: rest) label : List (Outline ω)) =
      order.outline (bodies rest) ++ bodies rest label := by
  simp [bodies, h]

theorem bodies_cons_of_ne {order : Order} {rest : List Order} (h : order.block? ≠ some label) :
    (bodies (order :: rest) label : List (Outline ω)) = bodies rest label := by
  simp [bodies, h]

theorem bodies_append_of_into_eq_nil {first : List Order} (h : into label first = [])
    (second : List Order) :
    (bodies (first ++ second) label : List (Outline ω)) = bodies second label := by
  induction first with
  | nil => rfl
  | cons order rest ih =>
    by_cases hb : order.block? = some label
    · simp [into_cons_of_eq hb] at h
    · rw [into_cons_of_ne hb] at h
      rw [List.cons_append, bodies_cons_of_ne hb, ih h]

theorem bodies_eq_nil {script : List Order} (h : into label script = []) :
    (bodies script label : List (Outline ω)) = [] := by
  have happend := bodies_append_of_into_eq_nil (ω := ω) h []
  simpa [bodies] using happend

/-- Nothing goes into a block up to the call that opens it. -/
theorem ScopedFrom.into_opened_eq_nil {past rest : List Order} {order : Order}
    (h : ScopedFrom known (past ++ order :: rest)) (hl : label ∈ order.opened) :
    into label (past ++ [order]) = [] := by
  rw [scopedFrom_append] at h
  obtain ⟨hpast, hfits, -⟩ := h
  have hnew : label ∉ known ++ opened past := hfits.2.2 label hl
  have hblock : order.block? ≠ some label := fun hb => hnew (hfits.1 label hb)
  rw [into_append, hpast.into_eq_nil hnew, into_cons_of_ne hblock]
  rfl

/-- The calls into a block all come after the one that opens it. -/
theorem ScopedFrom.into_opened {script past rest : List Order} {order : Order}
    (h : ScopedFrom known script) (hsplit : script = past ++ order :: rest)
    (hl : label ∈ order.opened) : into label script = into label rest := by
  subst hsplit
  rw [List.append_cons, into_append, h.into_opened_eq_nil hl, List.nil_append]

theorem ScopedFrom.bodies_opened {script past rest : List Order} {order : Order}
    (h : ScopedFrom known script) (hsplit : script = past ++ order :: rest)
    (hl : label ∈ order.opened) :
    (bodies script label : List (Outline ω)) = bodies rest label := by
  subst hsplit
  rw [List.append_cons, bodies_append_of_into_eq_nil (h.into_opened_eq_nil hl)]

/-- A body is what the calls into it say. -/
theorem ScopedFrom.bodies_eq {script : List Order} (h : ScopedFrom known script) (label : Label) :
    (bodies script label : List (Outline ω)) =
      (into label script).flatMap (Order.outline (bodies script)) := by
  suffices hsuffix : ∀ past rest, script = past ++ rest → ∀ label,
      (bodies rest label : List (Outline ω)) =
        (into label rest).flatMap (Order.outline (bodies script)) from
    hsuffix [] script rfl label
  intro past rest hscript
  induction rest generalizing past with
  | nil => exact fun _ => rfl
  | cons order rest ih =>
    intro label
    have hrest := ih (past ++ [order]) (by simpa using hscript) label
    by_cases hb : order.block? = some label
    · have houtline : order.outline (bodies rest) =
          (order.outline (bodies script) : List (Outline ω)) := by
        apply Order.outline_congr
        intro inner hinner
        rw [h.bodies_opened hscript hinner]
      rw [bodies_cons_of_eq hb, into_cons_of_eq hb, List.flatMap_cons, hrest, houtline]
    · rw [bodies_cons_of_ne hb, into_cons_of_ne hb, hrest]

/-! ### Trees of a given depth -/

/-- A relation between bodies that can be shown statement by statement. -/
structure Congruence (Rel : List (Outline ω) → List (Outline ω) → Prop) : Prop where
  refl : ∀ body, Rel body body
  trans : ∀ {first second third}, Rel first second → Rel second third → Rel first third
  append : ∀ {first second first' second'}, Rel first second → Rel first' second' →
    Rel (first ++ first') (second ++ second')
  outline : ∀ {order : Order} {first second : Label → List (Outline ω)},
    (∀ label ∈ order.opened, Rel (first label) (second label)) →
      Rel (order.outline first) (order.outline second)

theorem congruence_eq : Congruence (ω := ω) Eq where
  refl _ := rfl
  trans := Eq.trans
  append := by
    rintro _ _ _ _ rfl rfl
    rfl
  outline := Order.outline_congr

section
variable {Rel : List (Outline ω) → List (Outline ω) → Prop} (hrel : Congruence Rel)
  {tree : Nat → Label → List (Outline ω)} {script past rest : List Order} {depth : Nat}
  (hscoped : Scoped script)
  (htree : ∀ label ∈ opened script, ∀ depth,
    Rel ((into label script).flatMap (Order.outline (tree depth))) (tree (depth + 1) label))
include hrel hscoped htree

theorem Congruence.opened_of_suffix {order : Order} (hsplit : script = past ++ order :: rest)
    (hlabel : label ∈ order.opened) (hdepth : (opened rest).length < depth)
    (hrest : ∀ {lower}, (opened rest).length ≤ lower →
      Rel (bodies rest label) ((into label rest).flatMap (Order.outline (tree lower)))) :
    Rel (bodies rest label) (tree depth label) := by
  obtain ⟨lower, rfl⟩ : ∃ lower, depth = lower + 1 := ⟨depth - 1, by omega⟩
  have hblock := htree label (by simp [hsplit, hlabel]) lower
  rw [ScopedFrom.into_opened hscoped hsplit hlabel] at hblock
  exact hrel.trans (hrest (by omega)) hblock

/-- What the end of a script puts into a block. The depth counts the blocks still to be opened. -/
theorem Congruence.bodies_suffix (hsplit : script = past ++ rest)
    (hdepth : (opened rest).length ≤ depth) (label : Label) :
    Rel (bodies rest label) ((into label rest).flatMap (Order.outline (tree depth))) := by
  induction rest generalizing past depth label with
  | nil => exact hrel.refl _
  | cons order rest ih =>
    rw [opened_cons, List.length_append] at hdepth
    have hrest : script = (past ++ [order]) ++ rest := by simpa using hsplit
    have hlater := ih hrest (Nat.le_trans (Nat.le_add_left _ _) hdepth) label
    by_cases hb : order.block? = some label
    · rw [into_cons_of_eq hb, List.flatMap_cons, bodies_cons_of_eq hb]
      refine hrel.append (hrel.outline ?_) hlater
      intro inner hinner
      -- Whatever goes into `inner` comes later, where fewer blocks are left to be opened.
      have hpos : 0 < order.opened.length := List.length_pos_of_mem hinner
      exact hrel.opened_of_suffix hscoped htree hsplit hinner (by omega)
        fun hlower => ih hrest hlower inner
    · rw [into_cons_of_ne hb, bodies_cons_of_ne hb]
      exact hlater

/-- If the trees of each depth say what the calls do, given the trees that are one less deep, then
the number of blocks is deep enough. -/
theorem Congruence.bodies (hlabel : label ∈ opened script) :
    Rel (bodies script label) (tree (opened script).length label) := by
  obtain ⟨order, horder, hopened⟩ := List.mem_flatMap.mp hlabel
  obtain ⟨past, rest, hsplit⟩ := List.append_of_mem horder
  have hrest : script = (past ++ [order]) ++ rest := by simpa using hsplit
  have hdepth : (opened rest).length < (opened script).length := by
    have hpos : 0 < order.opened.length := List.length_pos_of_mem hopened
    rw [hsplit, opened_append, opened_cons, List.length_append, List.length_append]
    omega
  rw [ScopedFrom.bodies_opened hscoped hsplit hopened]
  exact hrel.opened_of_suffix hscoped htree hsplit hopened hdepth
    fun hlower => hrel.bodies_suffix hscoped htree hrest hlower label

end

/-! ### The order of calls -/

/-- Bodies depend only on the calls into each block. -/
theorem bodies_eq_of_into_eq {first second : List Order} (hfirst : Scoped first)
    (hsecond : Scoped second) (h : ∀ label, into label first = into label second) :
    (bodies first : Label → List (Outline ω)) = bodies second := by
  funext label
  have hbody : ∀ label, (bodies second label : List (Outline ω)) =
      (into label first).flatMap (Order.outline (bodies second)) := by
    intro label
    rw [h label]
    exact ScopedFrom.bodies_eq hsecond label
  -- The same trees serve for every depth here.
  have htree : ∀ label ∈ opened first, ∀ _ : Nat,
      (into label first).flatMap (Order.outline (bodies second)) =
        (bodies second label : List (Outline ω)) :=
    fun label _ _ => (hbody label).symm
  have hsuffix := congruence_eq.bodies_suffix hfirst htree (List.nil_append first).symm
    (Nat.le_refl _) label
  rw [hsuffix, hbody label]

/-- The sections of a script are its declarations, each with its body. -/
theorem Scoped.sections_eq {script : List Order} (h : Scoped script) :
    (sections script : List (Section ω)) =
      script.flatMap (Order.declared (bodies script)) := by
  suffices hsuffix : ∀ past rest, script = past ++ rest →
      (sections rest : List (Section ω)) = rest.flatMap (Order.declared (bodies script)) from
    hsuffix [] script rfl
  intro past rest hscript
  induction rest generalizing past with
  | nil => rfl
  | cons order rest ih =>
    have hdeclared : order.declared (bodies rest) =
        (order.declared (bodies script) : List (Section ω)) := by
      apply Order.declared_congr
      intro inner hinner
      rw [ScopedFrom.bodies_opened h hscript hinner]
    rw [sections, List.flatMap_cons, hdeclared, ih (past ++ [order]) (by simpa using hscript)]

end Script

end Polyglot
