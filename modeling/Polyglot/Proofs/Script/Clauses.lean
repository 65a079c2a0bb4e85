import Mathlib.Data.List.Perm.Basic
import Polyglot.Proofs.Clause
import Polyglot.Proofs.Script.Meaning

/-! # The clauses of a script

A scoped script and the outline that it describes consist of the same clauses: no call is lost
or duplicated, whatever the order in which the blocks are filled.
-/

namespace Polyglot

/-- The clause that a call adds, given the models to which the blocks belong. -/
def Order.clause (owners : Label → String) : Order → Clause
  | model name fields => .model name fields
  | enumeration name values => .enumeration name values
  | method owner name params returns _ => .method owner name params returns
  | act block action => .act (owners block) action
  | enter block scope _ => .enter (owners block) scope
  | branch block condition _ _ => .branch (owners block) condition

theorem Order.clause_congr {owner owner' : Label → String} {order : Order}
    (h : ∀ block ∈ order.block?, owner block = owner' block) :
    order.clause owner = order.clause owner' := by
  cases order <;> simp_all [clause, block?]

/-- A statement consists of its own clause and those of its scopes. -/
theorem Order.clausesAll_outline {ω : Type} {owners : Label → String} {order : Order}
    {block : Label} (body : Label → List (Outline ω)) (h : order.block? = some block) :
    Outline.clausesAll (owners block) (order.outline body) = order.clause owners ::
      order.opened.flatMap fun label =>
        Outline.clausesAll (order.own owners label) (body label) := by
  cases order with
  | act _ _ => simp_all [block?, outline, clause, opened, Outline.clausesAll, Outline.clauses]
  | enter _ _ _ =>
    simp_all [block?, outline, clause, opened, own, Outline.clausesAll, Outline.clauses]
  | branch _ condition thenBody elseBody =>
    have hthen := own_of_block owners h (List.mem_cons_self (a := thenBody))
    have helse := own_of_block owners h
      (List.mem_cons_of_mem thenBody (List.mem_cons_self (a := elseBody)))
    simp_all [block?, outline, clause, opened, Outline.clausesAll, Outline.clauses]
  | _ => simp [block?] at h

/-- A declaration consists of its own clause and those of its body. -/
theorem Order.clauses_declared {ω : Type} {owners : Label → String} {order : Order}
    (body : Label → List (Outline ω)) (h : order.block? = none) :
    (order.declared body).flatMap Section.clauses = order.clause owners ::
      order.opened.flatMap fun label =>
        Outline.clausesAll (order.own owners label) (body label) := by
  cases order <;> simp_all [block?, declared, clause, opened, own, Section.clauses]

theorem Order.declared_eq_nil {ω : Type} {order : Order} {block : Label}
    (body : Label → List (Outline ω)) (h : order.block? = some block) :
    order.declared body = [] := by
  cases order <;> simp_all [block?, declared]

namespace Script

/-- The clauses of a script, in the order of its calls. -/
def clauses (owner : Label → String) : List Order → List Clause
  | [] => []
  | order :: rest => order.clause owner :: clauses (order.own owner) rest

/-- Changing what one of several distinct labels stands for. -/
theorem perm_flatMap_of_mem {α : Type} {known : List Label} {label : Label} {f g : Label → List α}
    {extra : List α} (hnodup : known.Nodup) (hmem : label ∈ known)
    (hlabel : g label = extra ++ f label) (hother : ∀ other, other ≠ label → g other = f other) :
    (known.flatMap g).Perm (extra ++ known.flatMap f) := by
  induction known with
  | nil => simp at hmem
  | cons first rest ih =>
    obtain ⟨hfirst, hrest⟩ := List.nodup_cons.mp hnodup
    rw [List.flatMap_cons, List.flatMap_cons]
    by_cases h : first = label
    · subst h
      have hsame : rest.flatMap g = rest.flatMap f := by
        rw [List.flatMap_congr]
        intro other hmemRest
        exact hother other (fun heq => hfirst (heq ▸ hmemRest))
      rw [hlabel, hsame, List.append_assoc]
    · have hmemRest : label ∈ rest := (List.mem_cons.mp hmem).resolve_left (Ne.symm h)
      rw [hother first h]
      calc f first ++ rest.flatMap g
          |>.Perm (f first ++ (extra ++ rest.flatMap f)) := (ih hrest hmemRest).append_left _
        _ |>.Perm (extra ++ (f first ++ rest.flatMap f)) := List.perm_append_comm_assoc ..

/-- What a script puts into the known blocks and what it declares are its clauses. -/
theorem ScopedFrom.perm_clauses {ω : Type} {known : List Label} {script : List Order}
    (owner : Label → String) (h : ScopedFrom known script) (hknown : known.Nodup) :
    (known.flatMap (fun label => Outline.clausesAll (owner label)
        (bodies script label : List (Outline ω))) ++
      (sections script : List (Section ω)).flatMap Section.clauses).Perm
      (clauses owner script) := by
  induction script generalizing known owner with
  | nil => simp [bodies, sections, clauses, Outline.clausesAll]
  | cons order rest ih =>
    obtain ⟨⟨hblock, hopened, hnew⟩, hrest⟩ := h
    have hnodup : (known ++ order.opened).Nodup :=
      List.nodup_append.mpr ⟨hknown, hopened, fun a ha b hb hab => hnew b hb (hab ▸ ha)⟩
    have hold : known.flatMap (fun label => Outline.clausesAll (order.own owner label)
          (bodies rest label : List (Outline ω))) =
        known.flatMap fun label => Outline.clausesAll (owner label)
          (bodies rest label : List (Outline ω)) := by
      apply List.flatMap_congr
      intro label hlabel
      rw [Order.own_of_not_mem (fun hmem => hnew label hmem hlabel)]
    have hih := ih (order.own owner) hrest hnodup
    rw [List.flatMap_append, hold] at hih
    rw [clauses, sections, List.flatMap_append]
    cases hb : order.block? with
    | none =>
      have hsame : ∀ label, (bodies (order :: rest) label : List (Outline ω)) =
          bodies rest label := fun label => bodies_cons_of_ne (by simp [hb])
      simp only [hsame]
      rw [Order.clauses_declared _ hb, List.cons_append]
      refine List.perm_middle.trans (List.Perm.cons _ ?_)
      rw [← List.append_assoc]
      exact hih
    | some block =>
      -- The clauses of the statement leave its block, and those of its scopes join the open ones.
      have hchange := perm_flatMap_of_mem
        (g := fun label => Outline.clausesAll (owner label)
          (bodies (order :: rest) label : List (Outline ω)))
        (f := fun label => Outline.clausesAll (owner label)
          (bodies rest label : List (Outline ω)))
        hknown (hblock block hb)
        (by rw [bodies_cons_of_eq hb, Outline.clausesAll_append])
        (fun other hne => by rw [bodies_cons_of_ne (by simpa [hb] using Ne.symm hne)])
      rw [Order.declared_eq_nil _ hb, List.flatMap_nil, List.nil_append]
      apply (hchange.append_right _).trans
      rw [Order.clausesAll_outline _ hb, List.cons_append, List.cons_append]
      refine List.Perm.cons _ (List.Perm.trans ?_ hih)
      exact List.perm_append_comm.append_right _

/-- A scoped script consists of the clauses of what it declares. -/
theorem Scoped.perm_clauses {ω : Type} {script : List Order} (h : Scoped script)
    (owner : Label → String) :
    ((sections script : List (Section ω)).flatMap Section.clauses).Perm (clauses owner script) := by
  simpa using ScopedFrom.perm_clauses (ω := ω) owner h List.nodup_nil

/-! ### Gaps -/

theorem wholeAll_bodies {ω : Type} (script : List Order) (label : Label) :
    Outline.WholeAll (bodies script label : List (Outline ω)) := by
  induction script generalizing label with
  | nil => trivial
  | cons order rest ih =>
    by_cases hblock : order.block? = some label
    · rw [bodies_cons_of_eq hblock, Outline.wholeAll_append]
      refine ⟨?_, ih label⟩
      cases order <;> simp [Order.outline, Outline.WholeAll, Outline.Whole, ih]
    · rw [bodies_cons_of_ne hblock]
      exact ih label

/-- Nothing is missing in what a script describes. -/
theorem whole_sections {ω : Type} (script : List Order) :
    ∀ part ∈ (sections script : List (Section ω)), part.Whole := by
  induction script with
  | nil => simp [sections]
  | cons order rest ih =>
    intro part hpart
    rw [sections, List.mem_append] at hpart
    rcases hpart with hpart | hpart
    · cases order <;> simp only [Order.declared, List.mem_singleton, List.not_mem_nil] at hpart <;>
        subst hpart <;> simp [Section.Whole, wholeAll_bodies]
    · exact ih part hpart

/-! ### Owners -/

/-- The model to whose methods a block of the script belongs. -/
def ownerOf (script : List Order) : Label → String :=
  owners (fun _ => "") script

variable {script past rest : List Order} {order : Order}

/-- A block belongs to its owner from when it is opened on. -/
theorem Scoped.ownerOf_eq (h : Scoped script) (hsplit : script = past ++ rest) {label : Label}
    (hlabel : label ∈ opened past) : ownerOf script label = ownerOf past label := by
  subst hsplit
  have hrest : ScopedFrom (opened past) rest := (scopedFrom_append.mp h).2
  rw [ownerOf, owners_append]
  exact owners_of_not_mem fun hmem => hrest.opened_not_mem hmem hlabel

theorem Scoped.ownerOf_inner (h : Scoped script) (hsplit : script = past ++ order :: rest)
    {block inner : Label} (hblock : order.block? = some block) (hinner : inner ∈ order.opened) :
    ownerOf script inner = ownerOf script block := by
  have hsplit' : script = (past ++ [order]) ++ rest := by simpa using hsplit
  have hfits : order.Fits (opened past) := by
    rw [hsplit] at h
    exact (scopedFrom_append.mp h).2.1
  rw [h.ownerOf_eq hsplit' (by simp [hinner]), h.ownerOf_eq hsplit (hfits.1 block hblock)]
  simp [ownerOf, owners_append, Order.own_of_block _ hblock hinner]

theorem Scoped.ownerOf_method (h : Scoped script) {owner name : String} {params : List Field}
    {returns : Option Ty} {body : Label}
    (hsplit : script = past ++ .method owner name params returns body :: rest) :
    ownerOf script body = owner := by
  have hsplit' : script = (past ++ [.method owner name params returns body]) ++ rest := by
    simpa using hsplit
  rw [h.ownerOf_eq hsplit' (by simp [Order.opened])]
  simp [ownerOf, owners_append, Order.own]

/-- The clauses of a script, given the owners of all of its blocks. -/
theorem Scoped.clauses_eq (h : Scoped script) :
    clauses (fun _ => "") script = script.map (Order.clause (ownerOf script)) := by
  suffices hsuffix : ∀ past rest, script = past ++ rest →
      clauses (ownerOf past) rest = rest.map (Order.clause (ownerOf script)) from
    hsuffix [] script rfl
  intro past rest hsplit
  induction rest generalizing past with
  | nil => rfl
  | cons order rest ih =>
    have hfits : order.Fits (opened past) := by
      rw [hsplit] at h
      exact (scopedFrom_append.mp h).2.1
    have hclause : order.clause (ownerOf past) = order.clause (ownerOf script) :=
      Order.clause_congr fun block hblock =>
        (h.ownerOf_eq hsplit (hfits.1 block hblock)).symm
    have hown : order.own (ownerOf past) = ownerOf (past ++ [order]) := by
      simp [ownerOf, owners_append]
    rw [clauses, hclause, hown, ih (past ++ [order]) (by simpa using hsplit), List.map_cons]

/-- What a script describes consists of the clauses of its calls. -/
theorem Scoped.perm_map_clause {ω : Type} (h : Scoped script) :
    ((sections script : List (Section ω)).flatMap Section.clauses).Perm
      (script.map (Order.clause (ownerOf script))) := by
  rw [← h.clauses_eq]
  exact h.perm_clauses _

end Script

end Polyglot
