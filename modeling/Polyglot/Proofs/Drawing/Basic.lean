import Mathlib.Data.List.Induction
import Polyglot.Proofs.Document.Growth
import Polyglot.Proofs.Document.Printing
import Polyglot.Proofs.Printer
import Polyglot.Proofs.Script.Clauses

/-! # Drawings

The document that a script leaves, in closed form. Every block of it has a role: it is the top
level, or it is kept by a call for itself, or it is a body that later calls go to. The roles stand
in the order in which the blocks are added, whatever the order of the calls; the contents of each
block are said by the calls that are about it.

The languages differ in what a declaration shows and in which calls keep a block for themselves.
-/

namespace Polyglot

open Script

/-- What a block of a document is for. -/
inductive Role where
  | root
  /-- Kept for itself by the call at a position of the script. -/
  | own (index : Nat)
  | body (label : Label)
deriving DecidableEq

/-- The blocks of a statement, each after the line that leads to it, and the closing line. -/
def Entry.scopes : List Handle → List Entry
  | [] => []
  | [last] => [.block last, .line "\x7d"]
  | first :: rest => .block first :: .line "\x7d else \x7b" :: scopes rest

/-- How a language lays out a script. -/
structure Style where
  headline : Clause → String
  /-- Whether a call keeps a block for itself. -/
  owns : Order → Bool
  /-- The block that a call keeps for itself, given the handles of all bodies. -/
  own : (Label → Handle) → Order → Block
  /-- What a call shows at the top level, given the handle of its own block as well. -/
  item : (Label → Handle) → Handle → Order → Option (List Entry)
  owns_of_block : ∀ {order block}, order.block? = some block → owns order = false
  item_of_block : ∀ {handles handle order block}, order.block? = some block →
    item handles handle order = none
  item_ne_nil : ∀ {handles handle order}, item handles handle order ≠ some []

namespace Style

variable (style : Style)

/-- The roles of the blocks that a call adds. -/
def rolesOf (order : Order) (index : Nat) : List Role :=
  (if style.owns order then [.own index] else []) ++ order.opened.map .body

/-- The roles of all blocks, in the order in which they are added. -/
def roles (script : List Order) : List Role :=
  .root :: script.zipIdx.flatMap fun (order, index) => style.rolesOf order index

/-- The handle of the block with a role. -/
def place (script : List Order) (role : Role) : Handle :=
  .next ((style.roles script).idxOf role)

/-- What a statement shows in its block. -/
def entries (script : List Order) (order : Order) : List Entry :=
  .line (style.headline (order.clause (ownerOf script))) ::
    Entry.scopes (order.opened.map fun label => style.place script (.body label))

/-- What the first calls of a script show at the top level. -/
def items (script past : List Order) : List (List Entry) :=
  past.zipIdx.flatMap fun (order, index) =>
    (style.item (fun label => style.place script (.body label))
      (style.place script (.own index)) order).toList

/-- The block with a role after the first calls of a script. -/
def content (script past : List Order) : Role → Block
  | .root => { entries := ([.line ""].intercalate (style.items script past)).toArray }
  | .own index => (past[index]?).elim {} (style.own fun label => style.place script (.body label))
  | .body label =>
    { owner := some (ownerOf script label)
      entries := ((into label past).flatMap (style.entries script)).toArray }

/-- The document and the handles after the first calls of a script. -/
structure Drawn (script past : List Order) (handles : Label → Handle) (document : Document) :
    Prop where
  blocks : document.blocks.toList = (style.roles past).map (style.content script past)
  handles : ∀ label ∈ opened past, handles label = style.place script (.body label)

/-! ### Roles -/

variable {style} {script past rest : List Order} {order : Order} {label : Label}

theorem roles_append (past rest : List Order) : style.roles (past ++ rest) =
    style.roles past ++
      (rest.zipIdx past.length).flatMap fun (order, index) => style.rolesOf order index := by
  simp [roles, List.zipIdx_append]

theorem roles_concat : style.roles (past ++ [order]) =
    style.roles past ++ style.rolesOf order past.length := by
  simp [roles_append]

theorem body_mem_roles : .body label ∈ style.roles past ↔ label ∈ opened past := by
  induction past using List.reverseRecOn with
  | nil => simp [roles]
  | append_singleton past order ih =>
    rw [roles_concat, List.mem_append, ih]
    cases h : style.owns order <;> simp [rolesOf, h]

theorem lt_of_own_mem_roles {index : Nat} (h : .own index ∈ style.roles past) :
    index < past.length := by
  induction past using List.reverseRecOn with
  | nil => simp [roles] at h
  | append_singleton past order ih =>
    rw [roles_concat, List.mem_append] at h
    rw [List.length_append, List.length_singleton]
    rcases h with h | h
    · exact Nat.lt_succ_of_lt (ih h)
    · cases howns : style.owns order <;> simp_all [rolesOf]

/-- No two blocks have the same role. -/
theorem nodup_roles (h : Scoped past) : (style.roles past).Nodup := by
  induction past using List.reverseRecOn with
  | nil => simp [roles]
  | append_singleton past order ih =>
    obtain ⟨hpast, ⟨-, hopened, hnew⟩, -⟩ := scopedFrom_append.mp h
    rw [roles_concat, List.nodup_append]
    refine ⟨ih hpast, ?_, ?_⟩
    · have hbodies : (order.opened.map Role.body).Nodup :=
        hopened.map fun _ _ heq => Role.body.inj heq
      cases howns : style.owns order <;> simp [rolesOf, howns, hbodies]
    · rintro role hold _ hadded rfl
      rw [rolesOf, List.mem_append, List.mem_map] at hadded
      rcases hadded with hown | ⟨label, hlabel, rfl⟩
      · have hrole : role = .own past.length := by
          cases howns : style.owns order <;> simp_all
        exact Nat.lt_irrefl _ (lt_of_own_mem_roles (hrole ▸ hold))
      · exact hnew label hlabel (body_mem_roles.mp hold)

/-- The place of a role is where its block was added. -/
theorem place_of_getElem? (hscoped : Scoped script) (hsplit : script = past ++ rest) {role : Role}
    {i : Nat} (h : (style.roles past)[i]? = some role) : style.place script role = .next i := by
  have hwhole : (style.roles script)[i]? = some role := by
    rw [hsplit, roles_append, List.getElem?_append_left (List.getElem?_eq_some_iff.mp h).1, h]
  obtain ⟨hlt, hget⟩ := List.getElem?_eq_some_iff.mp hwhole
  rw [place, ← hget, (nodup_roles hscoped).idxOf_getElem i hlt]

variable (style) in
theorem length_roles_le (hsplit : script = past ++ rest) :
    (style.roles past).length ≤ (style.roles script).length := by
  rw [hsplit, roles_append, List.length_append]
  exact Nat.le_add_right _ _

variable (style) in
/-- Apart from the top level, blocks are bodies or kept by calls for themselves. -/
theorem length_roles (script : List Order) : (style.roles script).length =
    (opened script).length + script.countP style.owns + 1 := by
  induction script using List.reverseRecOn with
  | nil => simp [roles]
  | append_singleton past order ih =>
    rw [roles_concat, List.length_append, ih, rolesOf, opened_append, List.countP_append]
    cases howns : style.owns order <;> simp [howns] <;> omega

/-- Different roles have different places. -/
theorem place_inj (hscoped : Scoped script) (hroom : (style.roles script).length ≤ Handle.count)
    {first second : Role} (hfirst : first ∈ style.roles script)
    (hsecond : second ∈ style.roles script)
    (h : style.place script first = style.place script second) : first = second := by
  obtain ⟨i, hi⟩ := List.mem_iff_getElem?.mp hfirst
  obtain ⟨j, hj⟩ := List.mem_iff_getElem?.mp hsecond
  have hilt := (List.getElem?_eq_some_iff.mp hi).1
  have hjlt := (List.getElem?_eq_some_iff.mp hj).1
  have hwhole : script = script ++ [] := (List.append_nil script).symm
  rw [place_of_getElem? hscoped hwhole hi, place_of_getElem? hscoped hwhole hj] at h
  have hindex := congrArg Handle.index h
  rw [Handle.index_next (by omega), Handle.index_next (by omega)] at hindex
  rw [hindex, hj] at hi
  exact (Option.some.inj hi).symm

theorem own_mem_roles {index : Nat} (h : script[index]? = some order)
    (howns : style.owns order = true) : .own index ∈ style.roles script := by
  rw [roles, List.mem_cons, List.mem_flatMap]
  exact .inr ⟨(order, index), List.mem_zipIdx_iff_getElem?.mpr h, by simp [rolesOf, howns]⟩

/-- The number of blocks depends only on the clauses of a script, not on their order. -/
theorem length_roles_eq_of_perm {width : Clause → Nat}
    (hwidth : ∀ owners order index,
      (style.rolesOf order index).length = width (order.clause owners))
    {first second : List Order} {firstOwners secondOwners : Label → String}
    (h : (first.map (Order.clause firstOwners)).Perm (second.map (Order.clause secondOwners))) :
    (style.roles first).length = (style.roles second).length := by
  have hsum : ∀ (owners : Label → String) (script : List Order),
      (style.roles script).length = 1 + ((script.map (Order.clause owners)).map width).sum := by
    intro owners script
    induction script using List.reverseRecOn with
    | nil => simp [roles]
    | append_singleton past order ih =>
      rw [roles_concat, List.length_append, ih, hwidth owners]
      simp [Nat.add_assoc]
  rw [hsum firstOwners first, hsum secondOwners second, (h.map width).sum_nat]

variable (style) in
theorem place_root (script : List Order) : style.place script .root = .root := by
  simp [place, roles]
  rfl

/-! ### Steps -/

/-- The role of the block that a call goes to. -/
def spot (order : Order) : Role :=
  match order.block? with
  | some block => .body block
  | none => .root

variable (style) in
/-- What a call appends to the block that it goes to. -/
def added (script past : List Order) (order : Order) : List Entry :=
  match order.block? with
  | some _ => style.entries script order
  | none =>
    match style.item (fun label => style.place script (.body label))
        (style.place script (.own past.length)) order with
    | some item =>
      Document.separator ([.line ""].intercalate (style.items script past)) ++ item
    | none => []

variable (style) in
/-- The blocks that a call adds. -/
def news (script : List Order) (order : Order) : List Block :=
  (if style.owns order then [style.own (fun label => style.place script (.body label)) order]
    else []) ++ order.opened.map fun label => { owner := some (ownerOf script label) }

variable {handles : Label → Handle} {document : Document}

theorem Drawn.size (h : style.Drawn script past handles document) :
    document.blocks.size = (style.roles past).length := by
  rw [← Array.length_toList, h.blocks, List.length_map]

/-- Every block is where its role says. -/
theorem Drawn.find (h : style.Drawn script past handles document) (hscoped : Scoped script)
    (hroom : (style.roles script).length ≤ Handle.count) (hsplit : script = past ++ rest)
    {role : Role} (hrole : role ∈ style.roles past) :
    document.blocks[(style.place script role).index]? = some (style.content script past role) := by
  obtain ⟨i, hi⟩ := List.mem_iff_getElem?.mp hrole
  have hlt : i < (style.roles past).length := (List.getElem?_eq_some_iff.mp hi).1
  have hle := length_roles_le style hsplit
  rw [place_of_getElem? hscoped hsplit hi, Handle.index_next (by omega), ← Array.getElem?_toList,
    h.blocks, List.getElem?_map, hi]
  rfl

/-- Where the block goes that a call keeps for itself. -/
theorem Drawn.place_own (h : style.Drawn script past handles document) (hscoped : Scoped script)
    (hsplit : script = past ++ order :: rest) (howns : style.owns order = true) :
    style.place script (.own past.length) = .next document.blocks.size := by
  have hsplit' : script = (past ++ [order]) ++ rest := by simpa using hsplit
  apply place_of_getElem? hscoped hsplit'
  simp [roles_concat, h.size, rolesOf, howns]

/-- Where the bodies go that a call opens. -/
theorem Drawn.place_opened (h : style.Drawn script past handles document) (hscoped : Scoped script)
    (hsplit : script = past ++ order :: rest) {i : Nat} (hi : order.opened[i]? = some label) :
    style.place script (.body label) =
      .next (document.blocks.size + (if style.owns order then 1 else 0) + i) := by
  have hsplit' : script = (past ++ [order]) ++ rest := by simpa using hsplit
  apply place_of_getElem? hscoped hsplit'
  rw [h.size, roles_concat, Nat.add_assoc, List.getElem?_append_right (Nat.le_add_right _ _),
    Nat.add_sub_cancel_left, rolesOf]
  cases style.owns order <;> simp [hi, Nat.add_comm 1]

/-- The top level after the first calls. -/
theorem Drawn.find_root (h : style.Drawn script past handles document) (hscoped : Scoped script)
    (hroom : (style.roles script).length ≤ Handle.count) (hsplit : script = past ++ rest) :
    document.blocks[Handle.root.index]? = some (style.content script past .root) := by
  rw [← place_root style script]
  exact h.find hscoped hroom hsplit (by simp [roles])

/-- There is room for the blocks of the next call. -/
theorem Drawn.size_lt (h : style.Drawn script past handles document)
    (hroom : (style.roles script).length ≤ Handle.count) (hsplit : script = past ++ order :: rest)
    (howns : style.owns order = true) : document.blocks.size < Handle.count := by
  have hle := length_roles_le style (by simpa using hsplit :
    script = (past ++ [order]) ++ rest)
  rw [roles_concat, List.length_append, rolesOf, howns, if_pos rfl, List.length_append,
    List.length_singleton] at hle
  rw [h.size]
  omega

theorem modify_map_of_nodup {roles : List Role} (hnodup : roles.Nodup) {role : Role} {i : Nat}
    (h : roles[i]? = some role) (content : Role → Block) (change : Block → Block) :
    (roles.map content).modify i change =
      roles.map (Function.update content role (change (content role))) := by
  apply List.ext_getElem?
  intro j
  rw [List.getElem?_modify, List.getElem?_map, List.getElem?_map]
  by_cases hij : i = j
  · subst hij
    simp [h]
  · cases hj : roles[j]? with
    | none => simp
    | some other =>
      have hne : other ≠ role := by
        rintro rfl
        have hlt : i < roles.length := (List.getElem?_eq_some_iff.mp h).1
        exact hij ((List.getElem?_inj hlt hnodup).mp (h.trans hj.symm))
      simp [hij, hne]

theorem items_concat : style.items script (past ++ [order]) = style.items script past ++
    (style.item (fun label => style.place script (.body label))
      (style.place script (.own past.length)) order).toList := by
  simp [items, List.zipIdx_append]

theorem intercalate_concat {α : Type} (separator : List α) {items : List (List α)}
    (h : items ≠ []) (item : List α) :
    separator.intercalate (items ++ [item]) = separator.intercalate items ++ separator ++ item := by
  induction items with
  | nil => exact absurd rfl h
  | cons first rest ih =>
    cases rest with
    | nil => simp [List.intercalate]
    | cons second rest =>
      simp only [List.intercalate, List.cons_append, List.intersperse_cons_cons,
        List.flatten_cons] at ih ⊢
      rw [ih (List.cons_ne_nil _ _)]
      simp

theorem intercalate_items_eq_nil :
    [.line ""].intercalate (style.items script past) = [] ↔ style.items script past = [] := by
  constructor
  · intro h
    cases hitems : style.items script past with
    | nil => rfl
    | cons item rest =>
      have hmem : item ∈ style.items script past := by simp [hitems]
      simp only [items, List.mem_flatMap, Option.mem_toList] at hmem
      obtain ⟨⟨order, index⟩, -, hitem⟩ := hmem
      cases rest <;> simp_all [List.intercalate, style.item_ne_nil]
  · intro h
    simp [h, List.intercalate]

/-- What the top level shows after a further declaration. -/
theorem intercalate_items_concat (h : order.block? = none) :
    [.line ""].intercalate (style.items script (past ++ [order])) =
      [.line ""].intercalate (style.items script past) ++ style.added script past order := by
  rw [items_concat, added, h]
  cases hitem : style.item (fun label => style.place script (.body label))
      (style.place script (.own past.length)) order with
  | none => simp
  | some item =>
    by_cases hempty : style.items script past = []
    · simp [hempty, Document.separator, List.intercalate]
    · have hnonempty : [.line ""].intercalate (style.items script past) ≠ [] :=
        fun hnil => hempty (intercalate_items_eq_nil.mp hnil)
      simp [intercalate_concat _ hempty, Document.separator, hnonempty]

/-- A call changes the block that it goes to, and no other one. -/
theorem content_concat_old {role : Role} (hrole : role ∈ style.roles past) :
    style.content script (past ++ [order]) role =
      if role = spot order then
        { style.content script past role with
          entries := (style.content script past role).entries ++
            (style.added script past order).toArray }
      else style.content script past role := by
  cases role with
  | root =>
    cases hblock : order.block? with
    | none => simp [content, spot, hblock, intercalate_items_concat hblock]
    | some block => simp [content, spot, hblock, items_concat, style.item_of_block hblock]
  | own index =>
    have hlt := lt_of_own_mem_roles hrole
    have hne : Role.own index ≠ spot order := by
      cases hblock : order.block? <;> simp [spot, hblock]
    simp [content, hne, List.getElem?_append_left hlt]
  | body label =>
    by_cases hblock : order.block? = some label
    · simp [content, spot, hblock, added, into_append, into_cons_of_eq hblock]
    · have hne : Role.body label ≠ spot order := by
        rw [spot]
        cases hb : order.block? with
        | none => simp
        | some block =>
          rw [hb, Option.some.injEq] at hblock
          simpa using Ne.symm hblock
      simp [content, hne, into_append, into_cons_of_ne hblock]

theorem news_eq_map (hscoped : Scoped (past ++ [order])) : style.news script order =
    (style.rolesOf order past.length).map (style.content script (past ++ [order])) := by
  rw [news, rolesOf, List.map_append, List.map_map]
  congr 1
  · cases style.owns order <;> simp [content]
  · apply List.map_congr_left
    intro label hlabel
    simp [content, ScopedFrom.into_opened_eq_nil hscoped hlabel]

variable (style) in
theorem spot_mem_roles (hscoped : Scoped (past ++ [order])) : spot order ∈ style.roles past := by
  rw [spot]
  cases hblock : order.block? with
  | none => simp [roles]
  | some block =>
    have hfits : order.Fits (opened past) := (scopedFrom_append.mp hscoped).2.1
    exact body_mem_roles.mpr (hfits.1 block hblock)

variable (style) in
/-- The document after a further call. -/
def after (script past : List Order) (document : Document) (order : Order) : Document :=
  (document.append (style.place script (spot order)) (style.added script past order)).extend
    (style.news script order)

variable (style) in
/-- The handles after a further call. -/
def afterHandles (handles : Label → Handle) (document : Document) (order : Order) :
    Label → Handle :=
  bindAll handles (document.blocks.size + if style.owns order then 1 else 0) order.opened

theorem Drawn.start (script : List Order) (handles : Label → Handle) :
    style.Drawn script [] handles {} where
  blocks := by simp [roles, content, items, List.intercalate]
  handles label h := by simp at h

/-- The closed form is kept by every call. -/
theorem Drawn.step (h : style.Drawn script past handles document) (hscoped : Scoped script)
    (hroom : (style.roles script).length ≤ Handle.count) (hsplit : script = past ++ order :: rest) :
    style.Drawn script (past ++ [order]) (style.afterHandles handles document order)
      (style.after script past document order) := by
  have hsplit' : script = (past ++ [order]) ++ rest := by simpa using hsplit
  have hpast : Scoped (past ++ [order]) := by
    rw [hsplit'] at hscoped
    exact (scopedFrom_append.mp hscoped).1
  have hfits : order.Fits (opened past) := (scopedFrom_append.mp hpast).2.1
  have hnodup : (style.roles past).Nodup := nodup_roles (scopedFrom_append.mp hpast).1
  constructor
  · obtain ⟨i, hi⟩ := List.mem_iff_getElem?.mp (spot_mem_roles style hpast)
    have hlt : i < (style.roles past).length := (List.getElem?_eq_some_iff.mp hi).1
    have hle := length_roles_le style hsplit
    rw [after, Document.extend, Document.append, Array.toList_append, Array.toList_modify,
      place_of_getElem? hscoped hsplit hi, Handle.index_next (by omega), h.blocks,
      modify_map_of_nodup hnodup hi, roles_concat, List.map_append, ← news_eq_map hpast]
    congr 1
    apply List.map_congr_left
    intro role hrole
    rw [content_concat_old hrole, Function.update_apply]
    by_cases heq : role = spot order <;> simp [heq]
  · intro label hlabel
    rw [opened_append, List.mem_append, opened_cons, opened_nil, List.append_nil] at hlabel
    rcases hlabel with hlabel | hlabel
    · rw [afterHandles, bindAll_of_not_mem fun hmem => hfits.2.2 label hmem hlabel,
        h.handles label hlabel]
    · obtain ⟨i, hi⟩ := List.mem_iff_getElem?.mp hlabel
      rw [afterHandles, bindAll_of_getElem? hfits.2.1 hi, h.place_opened hscoped hsplit hi]

/-! ### Statements -/

/-- What a statement does to a document, in any language: its line goes to its block, and its
scopes are opened there. -/
def draw (handles : Label → Handle) (header : String) : Order → Step Document (Label → Handle)
  | .act block _ => do
    Document.addLine (handles block) header
    return handles
  | .enter block _ body => do
    let inner ← Document.openScope (handles block) header "\x7d"
    return Function.update handles body inner
  | .branch block _ thenBody elseBody => do
    let (thenBlock, elseBlock) ←
      Document.openScopes (handles block) header "\x7d else \x7b" "\x7d"
    return Function.update (Function.update handles thenBody thenBlock) elseBody elseBlock
  | _ => return handles

/-- The block of a statement belongs to a method of the right model. -/
theorem Drawn.find_block (h : style.Drawn script past handles document) (hscoped : Scoped script)
    (hroom : (style.roles script).length ≤ Handle.count) (hsplit : script = past ++ order :: rest)
    {block : Label} (hblock : order.block? = some block) :
    handles block = style.place script (.body block) ∧
      document.blocks[(handles block).index]? =
        some (style.content script past (.body block)) := by
  have hopen : block ∈ opened past := by
    rw [hsplit] at hscoped
    exact (scopedFrom_append.mp hscoped).2.1.1 block hblock
  have hhandle := h.handles block hopen
  refine ⟨hhandle, ?_⟩
  rw [hhandle]
  exact h.find hscoped hroom hsplit (body_mem_roles.mpr hopen)

/-- A statement changes the document as the closed form says. -/
theorem Drawn.draw_eq (h : style.Drawn script past handles document) (hscoped : Scoped script)
    (hroom : (style.roles script).length ≤ Handle.count) (hsplit : script = past ++ order :: rest)
    {block : Label} (hblock : order.block? = some block) :
    draw handles (style.headline (order.clause (ownerOf script))) order document =
      .ok (style.afterHandles handles document order)
        (style.after script past document order) := by
  obtain ⟨hhandle, hfind⟩ := h.find_block hscoped hroom hsplit hblock
  have howns := style.owns_of_block hblock
  have howner : ∀ inner ∈ order.opened, ownerOf script inner = ownerOf script block :=
    fun inner hinner => hscoped.ownerOf_inner hsplit hblock hinner
  have hplace : ∀ i inner, order.opened[i]? = some inner → _ :=
    fun i inner hi => h.place_opened hscoped hsplit hi
  have hlt := (Array.getElem?_eq_some_iff.mp hfind).1
  simp only [after, afterHandles, news, added, spot, hblock, howns, entries, ← hhandle]
  cases order with
  | act outer action =>
    obtain rfl : outer = block := by simpa [Order.block?] using hblock
    rw [draw, Step.bind_of_ok (Document.addLine_of_lt hlt _)]
    simp [Order.opened, Entry.scopes, bindAll]
  | enter outer scope body =>
    obtain rfl : outer = block := by simpa [Order.block?] using hblock
    rw [draw, Step.bind_of_ok (Document.openScope_of_find hfind _ _)]
    simp [Order.opened, Entry.scopes, bindAll, hplace 0 body rfl, howns, content,
      howner body (by simp [Order.opened])]
  | branch outer condition thenBody elseBody =>
    obtain rfl : outer = block := by simpa [Order.block?] using hblock
    rw [draw, Step.bind_of_ok (Document.openScopes_of_find hfind _ _ _)]
    simp [Order.opened, Entry.scopes, bindAll, hplace 0 thenBody rfl, hplace 1 elseBody rfl,
      howner thenBody (by simp [Order.opened]), howner elseBody (by simp [Order.opened]), howns,
      content]
  | _ => simp [Order.block?] at hblock

/-! ### Counting blocks -/

variable {σ : Type} [Target σ] {measure : σ → Nat}

theorem measure_run
    (hadds : ∀ handles order index,
      Step.Adds measure (style.rolesOf order index).length (Order.run handles order))
    {handles' : Label → Handle} {s s' : σ} (h : run handles script s = .ok handles' s')
    (start : Nat) :
    measure s' = measure s + ((script.zipIdx start).flatMap fun (order, index) =>
      style.rolesOf order index).length := by
  induction script generalizing handles s start with
  | nil =>
    obtain ⟨⟩ := h
    simp
  | cons order rest ih =>
    rw [run, Step.bind_eq_ok_iff] at h
    obtain ⟨between, state, hFirst, hRest⟩ := h
    rw [ih hRest (start + 1), hadds _ _ start hFirst, List.zipIdx_cons, List.flatMap_cons,
      List.length_append, Nat.add_assoc]

/-- If every call adds the blocks that the style says, so does a run, to the one that is there. -/
theorem size_of_run
    (hadds : ∀ handles order index,
      Step.Adds measure (style.rolesOf order index).length (Order.run handles order))
    {handles' : Label → Handle} {s s' : σ} (h : run handles script s = .ok handles' s')
    (hstart : measure s = 1) : measure s' = (style.roles script).length := by
  rw [measure_run hadds h 0, hstart, roles, List.length_cons, Nat.add_comm]

end Style

end Polyglot
