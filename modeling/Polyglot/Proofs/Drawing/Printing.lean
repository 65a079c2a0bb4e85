import Polyglot.Proofs.Drawing.Basic

/-! # Printed drawings

A document whose bodies hold what the calls of a script say prints the outline that the script
describes. The statements of a body are followed through the script: what is left to print of a
body is what the rest of the script puts there, and it nests no deeper than the rest of the script
opens blocks.
-/

namespace Polyglot.Style

open Script

variable {style : Style} {script past rest : List Order} {document : Document}

/-- Every body holds what the calls into it say. -/
def Filled (style : Style) (script : List Order) (document : Document) : Prop :=
  ∀ label ∈ opened script, ∃ block,
    document.blocks[(style.place script (.body label)).index]? = some block ∧
      block.entries.toList = (into label script).flatMap (style.entries script)

theorem Drawn.filled {handles : Label → Handle} (h : style.Drawn script script handles document)
    (hscoped : Scoped script) (hroom : (style.roles script).length ≤ Handle.count) :
    style.Filled script document := by
  intro label hlabel
  exact ⟨_, h.find hscoped hroom (List.append_nil script).symm (body_mem_roles.mpr hlabel), rfl⟩

/-- What the rest of a script puts into a body is printed there. -/
theorem Filled.prints (h : style.Filled script document) (hscoped : Scoped script)
    (hsplit : script = past ++ rest) {depth : Nat} (hdepth : (opened rest).length ≤ depth)
    {ω : Type} (label : Label) (level : Nat) :
    document.Prints depth level ((into label rest).flatMap (style.entries script))
      (Outline.linesAll style.headline (ownerOf script label) level
        (bodies rest label : List (Outline ω))) := by
  induction rest generalizing past depth label level with
  | nil => exact Document.Prints.nil
  | cons order rest ih =>
    rw [opened_cons, List.length_append] at hdepth
    have hrest : script = (past ++ [order]) ++ rest := by simpa using hsplit
    have hlater := ih hrest (by omega : (opened rest).length ≤ depth) label level
    by_cases hblock : order.block? = some label
    · rw [into_cons_of_eq hblock, List.flatMap_cons, bodies_cons_of_eq hblock,
        Outline.linesAll_append]
      refine Document.Prints.append ?_ hlater
      have hscopes : ∀ inner ∈ order.opened, ∃ block lower, depth = lower + 1 ∧
          document.blocks[(style.place script (.body inner)).index]? = some block ∧
          document.Prints lower (level + 1) block.entries.toList
            (Outline.linesAll style.headline (ownerOf script label) (level + 1)
              (bodies rest inner : List (Outline ω))) := by
        intro inner hinner
        have hpos : 0 < order.opened.length := List.length_pos_of_mem hinner
        obtain ⟨block, hfind, hentries⟩ := h inner (by simp [hsplit, hinner])
        refine ⟨block, depth - 1, by omega, hfind, ?_⟩
        rw [hentries, ScopedFrom.into_opened hscoped hsplit hinner,
          ← hscoped.ownerOf_inner hsplit hblock hinner]
        exact ih hrest (by omega) inner (level + 1)
      cases order with
      | act outer action =>
        obtain rfl : outer = label := by simpa [Order.block?] using hblock
        exact Document.Prints.nil.line _
      | enter outer scope body =>
        obtain rfl : outer = label := by simpa [Order.block?] using hblock
        obtain ⟨block, lower, rfl, hfind, hinner⟩ := hscopes body (by simp [Order.opened])
        have hprints := (Document.Prints.block hfind hinner (Document.Prints.nil.line "\x7d")).line
          (style.headline (.enter (ownerOf script outer) scope))
        simpa [entries, Order.opened, Entry.scopes, Order.clause, Order.outline, Outline.linesAll,
          Outline.lines] using hprints
      | branch outer condition thenBody elseBody =>
        obtain rfl : outer = label := by simpa [Order.block?] using hblock
        obtain ⟨thenBlock, lower, rfl, hthen, hthenBody⟩ :=
          hscopes thenBody (by simp [Order.opened])
        obtain ⟨elseBlock, _, hlower, helse, helseBody⟩ := hscopes elseBody (by simp [Order.opened])
        obtain rfl := Nat.succ.inj hlower
        have hprints := (Document.Prints.block hthen hthenBody
          ((Document.Prints.block helse helseBody (Document.Prints.nil.line "\x7d")).line
            "\x7d else \x7b")).line (style.headline (.branch (ownerOf script outer) condition))
        simpa [entries, Order.opened, Entry.scopes, Order.clause, Order.outline, Outline.linesAll,
          Outline.lines] using hprints
      | _ => simp [Order.block?] at hblock
    · rw [into_cons_of_ne hblock, bodies_cons_of_ne hblock]
      exact hlater

/-- A method is printed with its whole body between its line and the closing one. -/
theorem Filled.prints_method (h : style.Filled script document) (hscoped : Scoped script)
    {owner name : String} {params : List Field} {returns : Option Ty} {body : Label}
    (hsplit : script = past ++ .method owner name params returns body :: rest) {depth : Nat}
    (hdepth : (opened script).length ≤ depth) {ω : Type} (level : Nat) (header : String) :
    document.Prints depth level
      [.line header, .block (style.place script (.body body)), .line "\x7d"]
      (⟨level, header⟩ :: (Outline.linesAll style.headline owner (level + 1)
        (bodies script body : List (Outline ω)) ++ [⟨level, "\x7d"⟩])) := by
  have hrest : script = (past ++ [.method owner name params returns body]) ++ rest := by
    simpa using hsplit
  have hopen : (opened rest).length + 1 ≤ (opened script).length := by
    simp only [hsplit, opened_append, opened_cons, Order.opened, List.length_append,
      List.length_singleton]
    omega
  obtain ⟨lower, rfl⟩ : ∃ lower, depth = lower + 1 := ⟨depth - 1, by omega⟩
  obtain ⟨block, hfind, hentries⟩ := h body (by simp [hsplit, Order.opened])
  have hbody := h.prints hscoped hrest (by omega : (opened rest).length ≤ lower) (ω := ω) body
    (level + 1)
  have hopened := List.mem_singleton_self body
  rw [hscoped.ownerOf_method hsplit, ← ScopedFrom.into_opened hscoped hsplit hopened, ← hentries,
    ← ScopedFrom.bodies_opened hscoped hsplit hopened] at hbody
  exact (Document.Prints.block hfind hbody (Document.Prints.nil.line "\x7d")).line header

end Polyglot.Style
