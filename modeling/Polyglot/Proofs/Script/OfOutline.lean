import Polyglot.Proofs.Script.Clauses
import Polyglot.Proofs.Script.DepthFirst

/-! # The script of an outline

Every outline without gaps is described by a depth-first script, whose labels are the numbers of
the blocks in the order in which they are opened. So whatever holds of runs of scripts holds of
writing outlines.
-/

namespace Polyglot

open Script

variable {ω : Type}

namespace Outline

mutual
/-- The number of scopes in a statement. -/
def scopes : Outline ω → Nat
  | gap _ | act _ => 0
  | enter _ body => 1 + scopesAll body
  | branch _ thenBody elseBody => 2 + (scopesAll thenBody + scopesAll elseBody)

def scopesAll : List (Outline ω) → Nat
  | [] => 0
  | first :: rest => scopes first + scopesAll rest
end

mutual
/-- The calls that write a statement to a block; labels are given from `next` on. -/
def orders (block next : Label) : Outline ω → List Order
  | gap _ => []
  | act action => [.act block action]
  | enter scope body => .enter block scope next :: ordersAll next (next + 1) body
  | branch condition thenBody elseBody =>
    .branch block condition next (next + 1) ::
      (ordersAll next (next + 2) thenBody ++
        ordersAll (next + 1) (next + 2 + scopesAll thenBody) elseBody)

def ordersAll (block next : Label) : List (Outline ω) → List Order
  | [] => []
  | first :: rest => orders block next first ++ ordersAll block (next + scopes first) rest
end

mutual
theorem opened_orders (block next : Label) :
    (outline : Outline ω) → opened (outline.orders block next) = List.range' next outline.scopes
  | gap _ | act _ => by simp [orders, scopes, Order.opened]
  | enter _ body => by
    simp [orders, scopes, Order.opened, opened_ordersAll next (next + 1) body,
      Nat.add_comm 1, List.range'_succ]
  | branch _ thenBody elseBody => by
    simp [orders, scopes, Order.opened, opened_ordersAll _ _ thenBody,
      opened_ordersAll _ _ elseBody, Nat.add_comm 2, List.range'_succ, List.range'_append_1]

theorem opened_ordersAll (block next : Label) : (outlines : List (Outline ω)) →
    opened (ordersAll block next outlines) = List.range' next (scopesAll outlines)
  | [] => rfl
  | first :: rest => by
    simp [ordersAll, scopesAll, opened_orders block next first, opened_ordersAll block _ rest,
      List.range'_append_1]
end

mutual
/-- The calls that write a statement write it depth first, whatever follows. -/
theorem fills_orders (block next : Label) {later : List Order} (hlater : Fills block later) :
    (outline : Outline ω) → Fills block (outline.orders block next ++ later)
  | gap _ => hlater
  | act _ => .act hlater
  | enter _ body => .enter (fills_ordersAll next (next + 1) body) hlater
  | branch _ thenBody elseBody => by
    rw [orders, List.cons_append, List.append_assoc]
    exact .branch (fills_ordersAll _ _ thenBody) (fills_ordersAll _ _ elseBody) hlater

theorem fills_ordersAll (block next : Label) :
    (outlines : List (Outline ω)) → Fills block (ordersAll block next outlines)
  | [] => .nil
  | first :: rest => fills_orders block next (fills_ordersAll block _ rest) first
end

/-- Labels up to some number, and those that are given from it on. -/
theorem lt_of_mem_append {known : List Nat} {next : Nat} (count : Nat)
    (hnext : ∀ label ∈ known, label < next) :
    ∀ label ∈ known ++ List.range' next count, label < next + count := by
  intro label hlabel
  rcases List.mem_append.mp hlabel with hlabel | hlabel
  · have := hnext label hlabel
    omega
  · exact (List.mem_range'_1.mp hlabel).2

theorem not_mem_of_mem_range' {known : List Nat} {next : Nat} (count : Nat)
    (hnext : ∀ label ∈ known, label < next) : ∀ label ∈ List.range' next count, label ∉ known := by
  intro label hlabel hmem
  have hle := (List.mem_range'_1.mp hlabel).1
  exact absurd (hnext label hmem) (Nat.not_lt.mpr hle)

mutual
theorem scoped_orders {known : List Nat} {block next : Nat} (hblock : block ∈ known)
    (hnext : ∀ label ∈ known, label < next) :
    (outline : Outline ω) → ScopedFrom known (outline.orders block next)
  | gap _ => trivial
  | act _ => ⟨by simpa [Order.Fits, Order.block?, Order.opened] using hblock, trivial⟩
  | enter _ body => by
    refine ⟨⟨by simpa [Order.block?] using hblock, by simp [Order.opened],
      not_mem_of_mem_range' 1 hnext⟩, ?_⟩
    exact scoped_ordersAll (by simp) (lt_of_mem_append 1 hnext) body
  | branch _ thenBody elseBody => by
    refine ⟨⟨by simpa [Order.block?] using hblock, by simp [Order.opened],
      not_mem_of_mem_range' 2 hnext⟩, ?_⟩
    have hopen := lt_of_mem_append 2 hnext
    refine scopedFrom_append.mpr ⟨scoped_ordersAll (by simp) hopen thenBody, ?_⟩
    refine scoped_ordersAll (by simp [Order.opened]) ?_ elseBody
    rw [opened_ordersAll]
    exact lt_of_mem_append _ hopen

theorem scoped_ordersAll {known : List Nat} {block next : Nat} (hblock : block ∈ known)
    (hnext : ∀ label ∈ known, label < next) :
    (outlines : List (Outline ω)) → ScopedFrom known (ordersAll block next outlines)
  | [] => trivial
  | first :: rest => by
    refine scopedFrom_append.mpr ⟨scoped_orders hblock hnext first, ?_⟩
    refine scoped_ordersAll (List.mem_append_left _ hblock) ?_ rest
    rw [opened_orders]
    exact lt_of_mem_append _ hnext
end

mutual
/-- The calls that write a statement describe it. -/
theorem bodies_orders {known : List Nat} {block next : Nat} {later : List Order}
    (hnext : ∀ label ∈ known, label < next) (hlater : Fills block later) :
    (outline : Outline ω) → outline.Whole → ScopedFrom known (outline.orders block next ++ later) →
      bodies (outline.orders block next ++ later) block = outline :: bodies later block
  | gap _, hwhole, _ => hwhole.elim
  | act _, _, _ => by simp [orders, bodies, Order.block?, Order.outline]
  | enter scope body, hwhole, hscoped => by
    rw [orders, List.cons_append] at hscoped ⊢
    have hopen := lt_of_mem_append 1 hnext
    rw [(fills_ordersAll next (next + 1) body).bodies_enter hlater hscoped,
      bodies_ordersAll (by simp) hopen body hwhole]
  | branch condition thenBody elseBody, hwhole, hscoped => by
    rw [orders, List.cons_append, List.append_assoc] at hscoped ⊢
    have hopen := lt_of_mem_append 2 hnext
    have hopenElse : ∀ label ∈ known ++ List.range' next 2,
        label < next + 2 + scopesAll thenBody :=
      fun label hlabel => Nat.lt_add_right _ (hopen label hlabel)
    rw [(fills_ordersAll _ _ thenBody).bodies_branch (fills_ordersAll _ _ elseBody) hlater hscoped,
      bodies_ordersAll (by simp) hopen thenBody hwhole.1,
      bodies_ordersAll (by simp) hopenElse elseBody hwhole.2]

theorem bodies_ordersAll {known : List Nat} {block next : Nat} (hblock : block ∈ known)
    (hnext : ∀ label ∈ known, label < next) : (outlines : List (Outline ω)) →
      WholeAll outlines → bodies (ordersAll block next outlines) block = outlines
  | [], _ => rfl
  | first :: rest, hwhole => by
    have hscoped : ScopedFrom known (ordersAll block next (first :: rest)) :=
      scoped_ordersAll hblock hnext _
    rw [ordersAll] at hscoped ⊢
    rw [bodies_orders hnext (fills_ordersAll block _ rest) first hwhole.1 hscoped,
      bodies_ordersAll hblock (fun label hlabel => Nat.lt_add_right _ (hnext label hlabel)) rest
        hwhole.2]
end

end Outline

namespace Section

/-- The number of blocks that a declaration opens. -/
def scopes : Section ω → Nat
  | model _ _ | enumeration _ _ => 0
  | method _ _ _ _ body => 1 + Outline.scopesAll body

/-- The calls that write a declaration; labels are given from `next` on. -/
def orders (next : Label) : Section ω → List Order
  | model name fields => [.model name fields]
  | enumeration name values => [.enumeration name values]
  | method owner name params returns body =>
    .method owner name params returns next :: Outline.ordersAll next (next + 1) body

def ordersAll (next : Label) : List (Section ω) → List Order
  | [] => []
  | first :: rest => first.orders next ++ ordersAll (next + first.scopes) rest

theorem opened_orders (next : Label) (part : Section ω) :
    opened (part.orders next) = List.range' next part.scopes := by
  cases part <;> simp [orders, scopes, Order.opened, Outline.opened_ordersAll, Nat.add_comm 1,
    List.range'_succ]

theorem depthFirst_ordersAll (next : Label) (sections : List (Section ω)) :
    DepthFirst (ordersAll next sections) := by
  induction sections generalizing next with
  | nil => exact .nil
  | cons first rest ih =>
    cases first with
    | model _ _ => exact .model (ih _)
    | enumeration _ _ => exact .enumeration (ih _)
    | method _ _ _ _ body => exact .method (Outline.fills_ordersAll _ _ body) (ih _)

theorem scoped_orders {known : List Nat} {next : Nat} (hnext : ∀ label ∈ known, label < next)
    (part : Section ω) : ScopedFrom known (part.orders next) := by
  cases part with
  | model _ _ => exact ⟨by simp [Order.Fits, Order.block?, Order.opened], trivial⟩
  | enumeration _ _ => exact ⟨by simp [Order.Fits, Order.block?, Order.opened], trivial⟩
  | method _ _ _ _ body =>
    refine ⟨⟨by simp [Order.block?], by simp [Order.opened],
      Outline.not_mem_of_mem_range' 1 hnext⟩, ?_⟩
    exact Outline.scoped_ordersAll (by simp) (Outline.lt_of_mem_append 1 hnext) body

theorem scoped_ordersAll {known : List Nat} {next : Nat} (hnext : ∀ label ∈ known, label < next)
    (sections : List (Section ω)) : ScopedFrom known (ordersAll next sections) := by
  induction sections generalizing known next with
  | nil => trivial
  | cons first rest ih =>
    refine scopedFrom_append.mpr ⟨scoped_orders hnext first, ih ?_⟩
    rw [opened_orders]
    exact Outline.lt_of_mem_append _ hnext

/-- The calls that write declarations describe them. -/
theorem sections_ordersAll (known : List Nat) {next : Nat} (hnext : ∀ label ∈ known, label < next)
    {parts : List (Section ω)} (hwhole : ∀ part ∈ parts, part.Whole) :
    sections (ordersAll next parts) = parts := by
  induction parts generalizing known next with
  | nil => rfl
  | cons first rest ih =>
    have hscoped := scoped_ordersAll hnext (first :: rest)
    have hlater := Outline.lt_of_mem_append first.scopes hnext
    have hrest := ih _ hlater fun part hpart => hwhole part (List.mem_cons_of_mem _ hpart)
    cases first with
    | model _ _ => rw [ordersAll, orders, List.singleton_append, sections, hrest]; rfl
    | enumeration _ _ => rw [ordersAll, orders, List.singleton_append, sections, hrest]; rfl
    | method owner name params returns body =>
      have hbody : bodies (Outline.ordersAll next (next + 1) body) next = body :=
        Outline.bodies_ordersAll (by simp) (Outline.lt_of_mem_append 1 hnext) body
          (hwhole _ List.mem_cons_self)
      rw [ordersAll, orders, List.cons_append] at hscoped ⊢
      rw [DepthFirst.sections_method (Outline.fills_ordersAll _ _ body)
        (depthFirst_ordersAll _ rest) hscoped, hbody, hrest]

/-- The script that writes the given declarations. -/
def script (parts : List (Section ω)) : List Order :=
  ordersAll 0 parts

theorem scoped_script (parts : List (Section ω)) : Scoped (script parts) :=
  scoped_ordersAll (by simp) parts

theorem depthFirst_script (parts : List (Section ω)) : DepthFirst (script parts) :=
  depthFirst_ordersAll 0 parts

theorem sections_script {parts : List (Section ω)} (h : ∀ part ∈ parts, part.Whole) :
    sections (script parts) = parts :=
  sections_ordersAll [] (by simp) h

/-- Writing declarations is running their script. -/
theorem writeAll_eq_run {σ : Type} [Target σ] (fault : ω → Fault) {parts : List (Section ω)}
    (h : ∀ part ∈ parts, part.Whole) :
    (writeAll fault parts : Step σ Unit) =
      Script.run noHandles (script parts) >>= fun _ => return () := by
  have hrun := (depthFirst_script parts).writeAll_eq_run (σ := σ) fault (scoped_script parts)
    noHandles
  rwa [sections_script h] at hrun

end Section

end Polyglot
