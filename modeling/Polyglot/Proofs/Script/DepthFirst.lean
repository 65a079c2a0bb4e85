import Polyglot.Proofs.Script.Meaning

/-! # Depth-first scripts

A script is depth-first if it writes every body completely before it goes on: a method's before
the next declaration, a scope's before the next statement, and the first branch of a choice before
the second. Making the calls of such a script is the same as writing the outline that it
describes, to any target.
-/

namespace Polyglot.Script

variable {ω : Type}

/-- The calls write the given block and everything nested in it, depth first. -/
inductive Fills : Label → List Order → Prop where
  | nil {block : Label} : Fills block []
  | act {block : Label} {action : Action} {rest : List Order} (hrest : Fills block rest) :
      Fills block (.act block action :: rest)
  | enter {block inner : Label} {scope : Scope} {body rest : List Order}
      (hbody : Fills inner body) (hrest : Fills block rest) :
      Fills block (.enter block scope inner :: (body ++ rest))
  | branch {block thenLabel elseLabel : Label} {condition : Value}
      {thenBody elseBody rest : List Order} (hthen : Fills thenLabel thenBody)
      (helse : Fills elseLabel elseBody) (hrest : Fills block rest) :
      Fills block (.branch block condition thenLabel elseLabel ::
        (thenBody ++ (elseBody ++ rest)))

/-- Every body is written completely before the script goes on. -/
inductive DepthFirst : List Order → Prop where
  | nil : DepthFirst []
  | model {name : String} {fields : List Field} {rest : List Order} (hrest : DepthFirst rest) :
      DepthFirst (.model name fields :: rest)
  | enumeration {name : String} {values : List String} {rest : List Order}
      (hrest : DepthFirst rest) : DepthFirst (.enumeration name values :: rest)
  | method {owner name : String} {params : List Field} {returns : Option Ty} {inner : Label}
      {body rest : List Order} (hbody : Fills inner body) (hrest : DepthFirst rest) :
      DepthFirst (.method owner name params returns inner :: (body ++ rest))

/-- Calls that write one block declare nothing. -/
theorem Fills.sections_append {block : Label} {script : List Order} (h : Fills block script)
    (later : List Order) : (sections (script ++ later) : List (Section ω)) = sections later := by
  induction h generalizing later with
  | nil => rfl
  | act _ ih => simp [sections, Order.declared, ih]
  | enter _ _ ihBody ihRest => simp [sections, Order.declared, ihBody, ihRest]
  | branch _ _ _ ihThen ihElse ihRest => simp [sections, Order.declared, ihThen, ihElse, ihRest]

/-- Calls that write one block go to that block or to blocks that they open. -/
theorem Fills.into_eq_nil {block label : Label} {script : List Order} (h : Fills block script)
    (hne : label ≠ block) (hnew : label ∉ opened script) : into label script = [] := by
  induction h with
  | nil => rfl
  | act _ ih => rw [into_cons_of_ne (by simpa [Order.block?] using Ne.symm hne), ih hne hnew]
  | enter _ _ ihBody ihRest =>
    simp only [opened_cons, opened_append, Order.opened, List.mem_append, List.mem_singleton,
      not_or] at hnew
    rw [into_cons_of_ne (by simpa [Order.block?] using Ne.symm hne), into_append,
      ihBody hnew.1 hnew.2.1, ihRest hne hnew.2.2, List.nil_append]
  | branch _ _ _ ihThen ihElse ihRest =>
    simp only [opened_cons, opened_append, Order.opened, List.mem_append, List.mem_cons,
      List.not_mem_nil, or_false, not_or] at hnew
    rw [into_cons_of_ne (by simpa [Order.block?] using Ne.symm hne), into_append, into_append,
      ihThen hnew.1.1 hnew.2.1, ihElse hnew.1.2 hnew.2.2.1, ihRest hne hnew.2.2.2,
      List.nil_append, List.nil_append]

/-- Declarations with their bodies go to no block that is open before. -/
theorem DepthFirst.into_eq_nil {label : Label} {script : List Order} (h : DepthFirst script)
    (hnew : label ∉ opened script) : into label script = [] := by
  induction h with
  | nil => rfl
  | model _ ih =>
    rw [into_cons_of_ne (by simp [Order.block?]), ih (by simpa [Order.opened] using hnew)]
  | enumeration _ ih =>
    rw [into_cons_of_ne (by simp [Order.block?]), ih (by simpa [Order.opened] using hnew)]
  | method hbody _ ih =>
    simp only [opened_cons, opened_append, Order.opened, List.mem_append, List.mem_singleton,
      not_or] at hnew
    rw [into_cons_of_ne (by simp [Order.block?]), into_append,
      hbody.into_eq_nil hnew.1 hnew.2.1, ih hnew.2.2, List.nil_append]

/-- What comes later and goes elsewhere does not change a body. -/
theorem bodies_append_of_later {label : Label} {first : List Order} (later : List Order)
    (hlabel : into label later = []) (hnew : ∀ inner ∈ opened first, into inner later = []) :
    (bodies (first ++ later) label : List (Outline ω)) = bodies first label := by
  induction first generalizing label with
  | nil => exact bodies_eq_nil hlabel
  | cons order rest ih =>
    simp only [opened_cons, List.mem_append] at hnew
    have hrest : ∀ inner ∈ opened rest, into inner later = [] :=
      fun inner hinner => hnew inner (Or.inr hinner)
    have hscopes : order.outline (bodies (rest ++ later)) =
        (order.outline (bodies rest) : List (Outline ω)) :=
      Order.outline_congr fun inner hinner => ih (hnew inner (Or.inl hinner)) hrest
    rw [List.cons_append, bodies, bodies, hscopes, ih hlabel hrest]

/-- A body that is written completely stands alone: what follows does not add to it, and it adds
nothing to what is open before. -/
theorem Fills.bodies_append {known : List Label} {inner : Label} {body later : List Order}
    (hfills : Fills inner body) (hscoped : ScopedFrom known body)
    (hlater : ∀ label ∈ inner :: opened body, into label later = []) :
    (bodies (body ++ later) inner : List (Outline ω)) = bodies body inner ∧
      ∀ label ∈ known, label ≠ inner →
        (bodies (body ++ later) label : List (Outline ω)) = bodies later label := by
  constructor
  · apply bodies_append_of_later
    · exact hlater inner List.mem_cons_self
    · exact fun label hlabel => hlater label (List.mem_cons_of_mem _ hlabel)
  · intro label hknown hne
    apply bodies_append_of_into_eq_nil
    apply hfills.into_eq_nil hne
    exact fun hmem => hscoped.opened_not_mem hmem hknown

/-- Calls that write an open block leave alone what lies between. -/
theorem Fills.into_between {known : List Label} {block label : Label} {between rest : List Order}
    (hrest : Fills block rest) (hscoped : ScopedFrom (known ++ opened between) rest)
    (hlabel : label ∈ known ++ opened between) (hne : label ≠ block) : into label rest = [] :=
  hrest.into_eq_nil hne fun hmem => hscoped.opened_not_mem hmem hlabel

theorem Fills.bodies_enter {known : List Label} {block inner : Label} {scope : Scope}
    {body rest : List Order} (hbody : Fills inner body) (hrest : Fills block rest)
    (hscoped : ScopedFrom known (.enter block scope inner :: (body ++ rest))) :
    (bodies (.enter block scope inner :: (body ++ rest)) block : List (Outline ω)) =
      .enter scope (bodies body inner) :: bodies rest block := by
  obtain ⟨⟨hblock, -, hnew⟩, hscoped⟩ := hscoped
  obtain ⟨hscopedBody, hscopedRest⟩ := scopedFrom_append.mp hscoped
  have hknown : block ∈ known ++ [inner] := List.mem_append_left _ (hblock block rfl)
  have hne : block ≠ inner := fun h => hnew inner (by simp [Order.opened]) (h ▸ hblock block rfl)
  have hlater : ∀ label ∈ inner :: opened body, into label rest = [] := by
    intro label hlabel
    rcases List.mem_cons.mp hlabel with rfl | hlabel
    · exact hrest.into_between hscopedRest (by simp [Order.opened]) hne.symm
    · apply hrest.into_between hscopedRest (List.mem_append_right _ hlabel)
      rintro rfl
      exact hscopedBody.opened_not_mem hlabel hknown
  obtain ⟨hinner, hother⟩ := hbody.bodies_append (ω := ω) hscopedBody hlater
  rw [bodies_cons_of_eq rfl, Order.outline, hinner, hother block hknown hne]
  rfl

theorem Fills.bodies_branch {known : List Label} {block thenLabel elseLabel : Label}
    {condition : Value} {thenBody elseBody rest : List Order} (hthen : Fills thenLabel thenBody)
    (helse : Fills elseLabel elseBody) (hrest : Fills block rest)
    (hscoped : ScopedFrom known
      (.branch block condition thenLabel elseLabel :: (thenBody ++ (elseBody ++ rest)))) :
    (bodies (.branch block condition thenLabel elseLabel :: (thenBody ++ (elseBody ++ rest)))
        block : List (Outline ω)) =
      .branch condition (bodies thenBody thenLabel) (bodies elseBody elseLabel) ::
        bodies rest block := by
  obtain ⟨⟨hblock, hdistinct, hnew⟩, hscoped⟩ := hscoped
  obtain ⟨hscopedThen, hscopedRest⟩ := scopedFrom_append.mp hscoped
  obtain ⟨hscopedElse, hscopedRest⟩ := scopedFrom_append.mp hscopedRest
  simp only [Order.opened, List.nodup_cons, List.mem_cons, List.not_mem_nil, or_false,
    forall_eq_or_imp, forall_eq] at hdistinct hnew
  have hknown : block ∈ known ++ [thenLabel, elseLabel] :=
    List.mem_append_left _ (hblock block rfl)
  have hneThen : block ≠ thenLabel := fun h => hnew.1 (h ▸ hblock block rfl)
  have hneElse : block ≠ elseLabel := fun h => hnew.2 (h ▸ hblock block rfl)
  have hthenRest : ∀ label ∈ known ++ [thenLabel, elseLabel] ++ opened thenBody,
      label ≠ block → into label rest = [] := fun label hlabel hne =>
    hrest.into_between hscopedRest (List.mem_append_left _ hlabel) hne
  have hopenedThen : ∀ label ∈ opened thenBody, label ∉ known ++ [thenLabel, elseLabel] :=
    fun label => hscopedThen.opened_not_mem
  have hlaterThen : ∀ label ∈ thenLabel :: opened thenBody, into label (elseBody ++ rest) = [] := by
    intro label hlabel
    have hmem : label ∈ known ++ [thenLabel, elseLabel] ++ opened thenBody := by
      rcases List.mem_cons.mp hlabel with rfl | hlabel
      · simp
      · exact List.mem_append_right _ hlabel
    have hneLabel : label ≠ block ∧ label ≠ elseLabel := by
      rcases List.mem_cons.mp hlabel with rfl | hlabel
      · exact ⟨hneThen.symm, hdistinct.1⟩
      · have hout := hopenedThen label hlabel
        constructor <;> rintro rfl <;> simp_all
    rw [into_append, helse.into_between hscopedElse hmem hneLabel.2,
      hthenRest label hmem hneLabel.1, List.nil_append]
  have hlaterElse : ∀ label ∈ elseLabel :: opened elseBody, into label rest = [] := by
    intro label hlabel
    rcases List.mem_cons.mp hlabel with rfl | hlabel
    · exact hthenRest label (by simp) hneElse.symm
    · apply hrest.into_between hscopedRest (List.mem_append_right _ hlabel)
      rintro rfl
      exact hscopedElse.opened_not_mem hlabel (List.mem_append_left _ hknown)
  obtain ⟨hthenBody, hotherThen⟩ := hthen.bodies_append (ω := ω) hscopedThen hlaterThen
  obtain ⟨helseBody, hotherElse⟩ := helse.bodies_append (ω := ω) hscopedElse hlaterElse
  rw [bodies_cons_of_eq rfl, Order.outline, hthenBody, hotherThen elseLabel (by simp [Order.opened])
    (Ne.symm hdistinct.1), helseBody, hotherThen block hknown hneThen,
    hotherElse block (List.mem_append_left _ hknown) hneElse]
  rfl

theorem DepthFirst.sections_method {known : List Label} {owner name : String}
    {params : List Field} {returns : Option Ty} {inner : Label} {body rest : List Order}
    (hbody : Fills inner body) (hrest : DepthFirst rest)
    (hscoped : ScopedFrom known (.method owner name params returns inner :: (body ++ rest))) :
    (sections (.method owner name params returns inner :: (body ++ rest)) : List (Section ω)) =
      .method owner name params returns (bodies body inner) :: sections rest := by
  obtain ⟨hscopedBody, hscopedRest⟩ := scopedFrom_append.mp hscoped.2
  have hlater : ∀ label ∈ inner :: opened body, into label rest = [] := by
    intro label hlabel
    refine hrest.into_eq_nil fun hmem => hscopedRest.opened_not_mem hmem ?_
    rcases List.mem_cons.mp hlabel with rfl | hlabel
    · simp [Order.opened]
    · exact List.mem_append_right _ hlabel
  obtain ⟨hinner, -⟩ := hbody.bodies_append (ω := ω) hscopedBody hlater
  rw [sections, Order.declared, hinner, hbody.sections_append]
  rfl

/-! ### Runs -/

variable {σ : Type} [Target σ]

/-- What follows a run may rely on the handles that the script does not give. -/
theorem run_bind_congr {α : Type} {handles : Label → Handle} {script : List Order}
    {next next' : (Label → Handle) → Step σ α}
    (h : ∀ handles', (∀ label, label ∉ opened script → handles' label = handles label) →
      next handles' = next' handles') :
    (run handles script >>= next) = run handles script >>= next' := by
  funext s
  cases hrun : run handles script s with
  | ok handles' s' =>
    rw [Step.bind_of_ok hrun, Step.bind_of_ok hrun,
      h handles' (fun label hlabel => run_agree hrun hlabel)]
  | error fault s' => rw [Step.bind_of_error hrun, Step.bind_of_error hrun]

/-- A step that makes the calls of one script, followed by one that makes those of another. -/
theorem bind_eq_run_append {handles : Label → Handle} {first second : List Order}
    {step next : Step σ Unit} (hstep : step = run handles first >>= fun _ => return ())
    (hnext : ∀ handles', (∀ label, label ∉ opened first → handles' label = handles label) →
      next = run handles' second >>= fun _ => return ()) :
    (step >>= fun _ => next) = run handles (first ++ second) >>= fun _ => return () := by
  rw [hstep, run_append]
  simp only [bind_assoc, pure_bind]
  exact run_bind_congr hnext

/-- Making calls that write one block is writing what they put there. -/
theorem Fills.writeAll_eq_run {known : List Label} {block : Label} {script : List Order}
    (fault : ω → Fault) (h : Fills block script) (hscoped : ScopedFrom known script)
    (hblock : block ∈ known) (handles : Label → Handle) :
    (Outline.writeAll fault (handles block) (bodies script block) : Step σ Unit) =
      run handles script >>= fun _ => return () := by
  induction h generalizing known handles with
  | nil => simp [bodies, run, Outline.writeAll]
  | act hrest ih =>
    rw [bodies_cons_of_eq rfl, Order.outline, List.singleton_append, Outline.writeAll,
      ih hscoped.2 (by simpa [Order.opened] using hblock)]
    simp [run, Order.run, Outline.write]
  | @enter block inner scope body rest hbody hrest ihBody ihRest =>
    rw [hbody.bodies_enter hrest hscoped, Outline.writeAll, Outline.write, run, Order.run]
    obtain ⟨hfits, hscoped⟩ := hscoped
    obtain ⟨hscopedBody, hscopedRest⟩ := scopedFrom_append.mp hscoped
    simp only [bind_assoc, pure_bind]
    congr 1
    funext innerBlock
    have hne : block ≠ inner := by
      rintro rfl
      exact hfits.2.2 block (by simp [Order.opened]) hblock
    have hinner := ihBody hscopedBody (by simp [Order.opened])
      (Function.update handles inner innerBlock)
    rw [Function.update_self] at hinner
    refine bind_eq_run_append hinner fun handles' hagree => ?_
    have hsame : handles' block = handles block := by
      rw [hagree block fun hmem => hscopedBody.opened_not_mem hmem (List.mem_append_left _ hblock),
        Function.update_of_ne hne]
    rw [← hsame, ihRest hscopedRest (by simp [hblock]) handles']
  | @branch block thenLabel elseLabel condition thenBody elseBody rest hthen helse hrest
      ihThen ihElse ihRest =>
    rw [hthen.bodies_branch helse hrest hscoped, Outline.writeAll, Outline.write, run, Order.run]
    obtain ⟨⟨-, hdistinct, hnew⟩, hscoped⟩ := hscoped
    obtain ⟨hscopedThen, hscopedRest⟩ := scopedFrom_append.mp hscoped
    obtain ⟨hscopedElse, hscopedRest⟩ := scopedFrom_append.mp hscopedRest
    simp only [Order.opened, List.nodup_cons, List.mem_cons, List.not_mem_nil, or_false,
      forall_eq_or_imp, forall_eq] at hdistinct hnew
    simp only [bind_assoc, pure_bind]
    congr 1
    funext blocks
    -- Both handles are bound before the first branch is written, and survive it.
    have hneThen : block ≠ thenLabel := fun h => hnew.1 (h ▸ hblock)
    have hneElse : block ≠ elseLabel := fun h => hnew.2 (h ▸ hblock)
    have hwriteThen := ihThen hscopedThen (by simp [Order.opened])
      (Function.update (Function.update handles thenLabel blocks.1) elseLabel blocks.2)
    rw [Function.update_of_ne hdistinct.1, Function.update_self] at hwriteThen
    refine bind_eq_run_append hwriteThen fun handles' hagree => ?_
    have hopen : ∀ label ∈ known ++ [thenLabel, elseLabel], handles' label = Function.update
        (Function.update handles thenLabel blocks.1) elseLabel blocks.2 label :=
      fun label hlabel => hagree label fun hmem => hscopedThen.opened_not_mem hmem hlabel
    have helseHandle : handles' elseLabel = blocks.2 := by
      rw [hopen elseLabel (by simp), Function.update_self]
    have hwriteElse := ihElse hscopedElse (by simp [Order.opened]) handles'
    rw [helseHandle] at hwriteElse
    refine bind_eq_run_append hwriteElse fun handles'' hagree' => ?_
    have hsame : handles'' block = handles block := by
      rw [hagree' block fun hmem => hscopedElse.opened_not_mem hmem (by simp [hblock]),
        hopen block (by simp [hblock]), Function.update_of_ne hneElse,
        Function.update_of_ne hneThen]
    rw [← hsame, ihRest hscopedRest (by simp [hblock]) handles'']

/-- Making the calls of a depth-first script is writing the declarations that it makes. -/
theorem DepthFirst.writeAll_eq_run {known : List Label} {script : List Order} (fault : ω → Fault)
    (h : DepthFirst script) (hscoped : ScopedFrom known script) (handles : Label → Handle) :
    (Section.writeAll fault (sections script) : Step σ Unit) =
      run handles script >>= fun _ => return () := by
  induction h generalizing known handles with
  | nil => simp [sections, run, Section.writeAll]
  | model hrest ih =>
    simp [sections, run, Order.run, Order.declared, Section.writeAll, Section.write,
      ih hscoped.2 handles]
  | enumeration hrest ih =>
    simp [sections, run, Order.run, Order.declared, Section.writeAll, Section.write,
      ih hscoped.2 handles]
  | @method owner name params returns inner body rest hbody hrest ih =>
    rw [DepthFirst.sections_method hbody hrest hscoped, Section.writeAll, Section.write, run,
      Order.run]
    obtain ⟨hscopedBody, hscopedRest⟩ := scopedFrom_append.mp hscoped.2
    simp only [bind_assoc, pure_bind]
    congr 1
    funext block
    have hwrite := hbody.writeAll_eq_run (σ := σ) fault hscopedBody (by simp [Order.opened])
      (Function.update handles inner block)
    rw [Function.update_self] at hwrite
    exact bind_eq_run_append hwrite fun handles' _ => ih hscopedRest handles'

end Polyglot.Script
