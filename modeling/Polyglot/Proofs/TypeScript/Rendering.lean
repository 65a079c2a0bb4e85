import Polyglot.Proofs.Replay
import Polyglot.Proofs.TypeScript.Members

/-! # Rendered TypeScript

What a file shows once its methods have moved into their classes, and that it prints what the
script describes. Which blocks a method's lines came through does not matter any more.
-/

namespace Polyglot.TypeScript

open Script Style

/-- What a call brings to the class of the given name. -/
def memberEntries (script : List Order) (model : String) : Order → List Entry
  | .method owner name params returns body =>
    if owner = model then
      [.line (headline (.method owner name params returns)),
        .block (style.place script (.body body)), .line "\x7d"]
    else []
  | _ => []

/-- A model of the given name is declared. -/
def declares (model : String) (script : List Order) : Bool :=
  script.any fun
    | .model name _ => model = name
    | _ => false

variable {script past rest : List Order} {order : Order} {start : Nat}
  {handles : Label → Handle} {file : File}

theorem declares_eq_false_iff {model : String} :
    declares model rest = false ↔ ∀ fields, .model model fields ∉ rest := by
  induction rest with
  | nil => simp [declares]
  | cons order rest ih =>
    rw [declares] at ih
    cases order <;> simp [declares, ih, forall_and]

/-! ### What moves -/

theorem exists_of_mem_awaits {member : Member}
    (h : member ∈ (rest.zipIdx start).flatMap (awaits script)) :
    ∃ index params returns body, start ≤ index ∧
      rest[index - start]? = some (.method member.model member.method params returns body) ∧
      member.block = style.place script (.own index) := by
  obtain ⟨⟨order, index⟩, hpair, hawaits⟩ := List.mem_flatMap.mp h
  obtain ⟨hle, hget⟩ := List.mk_mem_zipIdx_iff_le_and_getElem?_sub.mp hpair
  cases order with
  | method owner name params returns body =>
    obtain rfl := List.mem_singleton.mp hawaits
    exact ⟨index, params, returns, body, hle, hget, rfl⟩
  | _ => simp [awaits] at hawaits

theorem nodup_waiting (hscoped : Scoped script)
    (hroom : (style.roles script).length ≤ Handle.count) (past : List Order)
    (hsplit : script = past ++ rest) :
    (((rest.zipIdx past.length).flatMap (awaits script)).map Member.block).Nodup := by
  induction rest generalizing past with
  | nil => simp
  | cons order rest ih =>
    have hrest := ih (past ++ [order]) (by simpa using hsplit)
    rw [List.length_append, List.length_singleton] at hrest
    rw [List.zipIdx_cons, List.flatMap_cons, List.map_append]
    cases order with
    | method owner name params returns body =>
      refine List.nodup_cons.mpr ⟨?_, hrest⟩
      intro hmem
      obtain ⟨member, hmember, hblock⟩ := List.mem_map.mp hmem
      obtain ⟨index, params', returns', body', hle, hget, hplace⟩ := exists_of_mem_awaits hmember
      have hindex : script[index]? =
          some (.method member.model member.method params' returns' body') := by
        rw [hsplit, List.append_cons, List.getElem?_append_right (by simpa using hle)]
        simpa using hget
      have hfirst : script[past.length]? = some (.method owner name params returns body) := by
        simp [hsplit]
      have hrole := place_inj hscoped hroom (own_mem_roles_of_declaration hindex rfl)
        (own_mem_roles_of_declaration hfirst rfl) (hplace.symm.trans hblock)
      have heq := Role.own.inj hrole
      omega
    | _ => exact hrest

/-- The methods of a file and where they go. -/
abbrev movesAfter (script : List Order) : List (Handle × Handle) :=
  (membersAfter script script).moves (membersAfter script script).waiting

/-- All methods of the script have their model. -/
abbrev NoStray (script : List Order) : Prop :=
  (membersAfter script script).firstStray? (membersAfter script script).waiting = none

/-- The block of a method, which moves. -/
def MethodRole (script : List Order) (role : Role) : Prop :=
  ∃ index owner name params returns body,
    script[index]? = some (.method owner name params returns body) ∧ role = .own index

/-- The block of a model, to which methods move. -/
def ModelRole (script : List Order) (role : Role) : Prop :=
  ∃ index name fields, script[index]? = some (.model name fields) ∧ role = .own index

theorem MethodRole.mem_roles {role : Role} (h : MethodRole script role) :
    role ∈ style.roles script := by
  obtain ⟨index, _, _, _, _, _, hget, rfl⟩ := h
  exact own_mem_roles_of_declaration hget rfl

theorem ModelRole.mem_roles {role : Role} (h : ModelRole script role) :
    role ∈ style.roles script := by
  obtain ⟨index, _, _, hget, rfl⟩ := h
  exact own_mem_roles_of_declaration hget rfl

theorem not_methodRole_own {index : Nat} (hget : script[index]? = some order)
    (horder : ∀ owner name params returns body, order ≠ .method owner name params returns body) :
    ¬ MethodRole script (.own index) := by
  rintro ⟨_, owner, name, params, returns, body, hmethod, ⟨⟩⟩
  rw [hget] at hmethod
  exact horder owner name params returns body (Option.some.inj hmethod)

theorem not_modelRole_own {index : Nat} (hget : script[index]? = some order)
    (horder : ∀ name fields, order ≠ .model name fields) : ¬ ModelRole script (.own index) := by
  rintro ⟨_, name, fields, hmodel, ⟨⟩⟩
  rw [hget] at hmodel
  exact horder name fields (Option.some.inj hmodel)

theorem ModelRole.not_methodRole {role : Role} (h : ModelRole script role) :
    ¬ MethodRole script role := by
  obtain ⟨index, _, _, hget, rfl⟩ := h
  exact not_methodRole_own hget (by simp)

/-- What moves goes from the block of a method to the block of its model. -/
theorem exists_of_mem_moves (hstray : NoStray script) {pair : Handle × Handle}
    (h : pair ∈ movesAfter script) :
    (∃ role, MethodRole script role ∧ pair.1 = style.place script role) ∧
      ∃ role, ModelRole script role ∧ pair.2 = style.place script role := by
  obtain ⟨member, hmember, rfl⟩ := List.mem_map.mp h
  have hhome := List.find?_eq_none.mp hstray member hmember
  rw [waiting_eq] at hmember
  obtain ⟨index, params, returns, body, -, hget, hplace⟩ := exists_of_mem_awaits hmember
  refine ⟨⟨_, ⟨index, _, _, params, returns, body, hget, rfl⟩, hplace⟩, ?_⟩
  cases hcase : (membersAfter script script).home? member.model with
  | none => simp [hcase] at hhome
  | some handle =>
    obtain ⟨home, fields, hmodel, rfl⟩ := exists_of_home? hcase
    exact ⟨_, ⟨home, member.model, fields, hmodel, rfl⟩, rfl⟩

theorem ne_of_mem_moves (hscoped : Scoped script)
    (hroom : (style.roles script).length ≤ Handle.count) (hstray : NoStray script)
    {role : Role} (hrole : role ∈ style.roles script) (hmodel : ¬ ModelRole script role)
    {pair : Handle × Handle} (h : pair ∈ movesAfter script) :
    pair.2 ≠ style.place script role := by
  obtain ⟨-, other, hother, hplace⟩ := exists_of_mem_moves hstray h
  intro heq
  rw [place_inj hscoped hroom hother.mem_roles hrole (hplace.symm.trans heq)] at hother
  exact hmodel hother

theorem not_source (hscoped : Scoped script)
    (hroom : (style.roles script).length ≤ Handle.count) (hstray : NoStray script)
    {role : Role} (hrole : role ∈ style.roles script) (hmethod : ¬ MethodRole script role) :
    style.place script role ∉ (movesAfter script).map Prod.fst := by
  intro hmem
  obtain ⟨pair, hpair, heq⟩ := List.mem_map.mp hmem
  obtain ⟨⟨other, hother, hplace⟩, -⟩ := exists_of_mem_moves hstray hpair
  rw [place_inj hscoped hroom hother.mem_roles hrole (hplace.symm.trans heq)] at hother
  exact hmethod hother

theorem moves_map (document : Document) (members : Members) (waiting : List Member)
    (handle : Handle) : document.moves (members.moves waiting) handle =
      waiting.flatMap fun member =>
        if (members.home? member.model).getD .root = handle then document.contents member.block
        else [] := by
  induction waiting with
  | nil => rfl
  | cons member rest ih =>
    rw [List.flatMap_cons, ← ih]
    exact document.moves_cons _ _ _ _

theorem contents_own (h : Drafted script script handles file) (hscoped : Scoped script)
    (hroom : (style.roles script).length ≤ Handle.count) {index : Nat}
    (hget : script[index]? = some order) (hblock : order.block? = none) :
    file.document.contents (style.place script (.own index)) =
      (ownBlock (fun label => style.place script (.body label)) order).entries.toList := by
  have hfind := h.drawn.find hscoped hroom (List.append_nil script).symm
    (own_mem_roles_of_declaration hget hblock)
  simp [Document.contents, hfind, content, hget]

/-- The methods of a model move to its last declaration. -/
theorem moves_model (h : Drafted script script handles file) (hscoped : Scoped script)
    (hroom : (style.roles script).length ≤ Handle.count) {name : String} {fields : List Field}
    (hsplit : script = past ++ .model name fields :: rest) :
    file.document.moves (movesAfter script) (style.place script (.own past.length)) =
      if declares name rest then [] else script.flatMap (memberEntries script name) := by
  have hhome : ∀ model, ((membersAfter script script).home? model).getD .root =
      style.place script (.own past.length) ↔ model = name ∧ declares name rest = false := by
    intro model
    rw [declares_eq_false_iff, ← home?_eq_iff hscoped hroom hsplit]
    cases (membersAfter script script).home? model with
    | some handle => simp
    | none =>
      -- A method without a home would go to the root, which is not the block of a model.
      have hget : script[past.length]? = some (.model name fields) := by simp [hsplit]
      have hne : style.place script .root ≠ style.place script (.own past.length) := fun heq =>
        absurd (place_inj hscoped hroom (by simp [roles])
          (own_mem_roles_of_declaration hget rfl) heq) (by simp)
      rw [place_root] at hne
      simpa using hne
  have hmember : ∀ pair ∈ script.zipIdx, ((awaits script pair).flatMap fun member =>
      if ((membersAfter script script).home? member.model).getD .root =
          style.place script (.own past.length) then file.document.contents member.block else []) =
      if declares name rest then [] else memberEntries script name pair.1 := by
    rintro ⟨order, index⟩ hpair
    have hget := List.mk_mem_zipIdx_iff_getElem?.mp hpair
    cases order with
    | method owner method params returns body =>
      have hcontents := contents_own h hscoped hroom hget rfl
      simp only [awaits, List.flatMap_cons, List.flatMap_nil, List.append_nil, hhome, hcontents,
        memberEntries, ownBlock]
      cases declares name rest <;> simp
    | _ => cases declares name rest <;> simp [awaits, memberEntries]
  rw [moves_map, waiting_eq, List.flatMap_assoc, List.flatMap_congr hmember]
  cases declares name rest with
  | true => simp
  | false =>
    have hfst := List.flatMap_map Prod.fst (memberEntries script name) (l := script.zipIdx)
    rw [List.zipIdx_map_fst] at hfst
    simpa using hfst.symm

/-! ### The settled document -/

/-- What the document shows after all methods have moved. -/
structure Settled (script : List Order) (document : Document) : Prop where
  root : ∃ block, document.blocks[Handle.root.index]? = some block ∧
    block.entries.toList = [.line ""].intercalate (style.items script script)
  filled : style.Filled script document
  enumeration : ∀ {past rest name values}, script = past ++ .enumeration name values :: rest →
    ∃ block, document.blocks[(style.place script (.own past.length)).index]? = some block ∧
      block.entries.toList = (details (.enumeration name values)).map .line
  model : ∀ {past rest name fields}, script = past ++ .model name fields :: rest →
    ∃ block, document.blocks[(style.place script (.own past.length)).index]? = some block ∧
      block.entries.toList = (details (.model name fields)).map .line ++
        if declares name rest then [] else script.flatMap (memberEntries script name)

/-- What becomes of a block that is not moved. -/
theorem Drafted.find_moved (h : Drafted script script handles file) (hscoped : Scoped script)
    (hroom : (style.roles script).length ≤ Handle.count) (hstray : NoStray script) :
    ∃ document, Document.moveAll (movesAfter script) file.document = .ok () document ∧
      document.blocks.size = file.document.blocks.size ∧
      ∀ role ∈ style.roles script, ¬ MethodRole script role →
        ∃ block, document.blocks[(style.place script role).index]? = some block ∧
          block.entries.toList = (style.content script script role).entries.toList ++
            file.document.moves (movesAfter script) (style.place script role) := by
  have hfind : ∀ role ∈ style.roles script,
      file.document.blocks[(style.place script role).index]? =
        some (style.content script script role) := fun role hrole =>
    h.drawn.find hscoped hroom (List.append_nil script).symm hrole
  have hlt : ∀ role ∈ style.roles script,
      (style.place script role).index < file.document.blocks.size := fun role hrole =>
    (Array.getElem?_eq_some_iff.mp (hfind role hrole)).1
  have hvalid : ∀ pair ∈ movesAfter script, pair.1.index < file.document.blocks.size ∧
      pair.2.index < file.document.blocks.size := by
    intro pair hpair
    obtain ⟨⟨source, hmethod, hsource⟩, target, hmodel, htarget⟩ :=
      exists_of_mem_moves hstray hpair
    rw [hsource, htarget]
    exact ⟨hlt source hmethod.mem_roles, hlt target hmodel.mem_roles⟩
  have hsources : ((movesAfter script).map Prod.fst).Nodup := by
    have hblocks := nodup_waiting hscoped hroom [] rfl
    rw [List.length_nil, ← waiting_eq] at hblocks
    simpa [Members.moves, Function.comp_def] using hblocks
  have hdisjoint : ∀ pair ∈ movesAfter script, pair.2 ∉ (movesAfter script).map Prod.fst := by
    intro pair hpair
    obtain ⟨-, target, hmodel, htarget⟩ := exists_of_mem_moves hstray hpair
    rw [htarget]
    exact not_source hscoped hroom hstray hmodel.mem_roles hmodel.not_methodRole
  obtain ⟨document, hmove, hsize, hend⟩ :=
    file.document.moveAll_of_disjoint hvalid hsources hdisjoint
  refine ⟨document, hmove, hsize, fun role hrole hmethod => ?_⟩
  have hblock := hend _ (not_source hscoped hroom hstray hrole hmethod)
  rw [hfind role hrole, Option.map_some] at hblock
  exact ⟨_, hblock, by simp⟩

theorem moves_eq_nil (hscoped : Scoped script)
    (hroom : (style.roles script).length ≤ Handle.count) (hstray : NoStray script)
    {role : Role} (hrole : role ∈ style.roles script) (hmodel : ¬ ModelRole script role)
    (document : Document) : document.moves (movesAfter script) (style.place script role) = [] := by
  rw [Document.moves, List.filter_eq_nil_iff.mpr, List.flatMap_nil]
  intro pair hpair
  simpa using ne_of_mem_moves hscoped hroom hstray hrole hmodel hpair

theorem Drafted.settled (h : Drafted script script handles file) (hscoped : Scoped script)
    (hroom : (style.roles script).length ≤ Handle.count) (hstray : NoStray script) :
    ∃ document, Document.moveAll (movesAfter script) file.document = .ok () document ∧
      document.blocks.size = file.document.blocks.size ∧ Settled script document := by
  obtain ⟨document, hmove, hsize, hfind⟩ := h.find_moved hscoped hroom hstray
  have hsame : ∀ role ∈ style.roles script, ¬ MethodRole script role → ¬ ModelRole script role →
      ∃ block, document.blocks[(style.place script role).index]? = some block ∧
        block.entries.toList = (style.content script script role).entries.toList := by
    intro role hrole hmethod hmodel
    have hblock := hfind role hrole hmethod
    rwa [moves_eq_nil hscoped hroom hstray hrole hmodel, List.append_nil] at hblock
  refine ⟨document, hmove, hsize, ?_, ?_, ?_, ?_⟩
  · obtain ⟨block, hblock, hentries⟩ := hsame .root (by simp [roles]) (by simp [MethodRole])
      (by simp [ModelRole])
    rw [place_root] at hblock
    exact ⟨block, hblock, hentries⟩
  · intro label hlabel
    exact hsame (.body label) (body_mem_roles.mpr hlabel) (by simp [MethodRole])
      (by simp [ModelRole])
  · intro past rest name values hsplit
    have hget : script[past.length]? = some (.enumeration name values) := by simp [hsplit]
    obtain ⟨block, hblock, hentries⟩ := hsame (.own past.length)
      (own_mem_roles_of_declaration hget rfl) (not_methodRole_own hget (by simp))
      (not_modelRole_own hget (by simp))
    refine ⟨block, hblock, ?_⟩
    rw [hentries]
    simp [content, hget, ownBlock]
  · intro past rest name fields hsplit
    have hget : script[past.length]? = some (.model name fields) := by simp [hsplit]
    obtain ⟨block, hblock, hentries⟩ := hfind (.own past.length)
      (own_mem_roles_of_declaration hget rfl) (not_methodRole_own hget (by simp))
    refine ⟨block, hblock, ?_⟩
    rw [hentries, moves_model h hscoped hroom hsplit]
    simp [content, hget, ownBlock]

/-! ### Printing -/

variable {ω : Type} {document : Document} {depth : Nat}

/-- The methods of a class are printed in the order of their declarations. -/
theorem Settled.prints_members (h : Settled script document) (hscoped : Scoped script)
    (hdepth : (opened script).length ≤ depth) (model : String) (past : List Order)
    (hsplit : script = past ++ rest) :
    document.Prints depth 1 (rest.flatMap (memberEntries script model))
      (membersLines model (rest.flatMap
        (Order.declared (bodies script : Label → List (Outline ω))))) := by
  induction rest generalizing past with
  | nil => exact Document.Prints.nil
  | cons order rest ih =>
    have hrest := ih (past ++ [order]) (by simpa using hsplit)
    rw [List.flatMap_cons, List.flatMap_cons, membersLines, List.flatMap_append]
    refine Document.Prints.append ?_ hrest
    cases order with
    | method owner name params returns body =>
      by_cases howner : owner = model
      · subst howner
        have hprints := h.filled.prints_method (ω := ω) hscoped hsplit hdepth 1
          (headline (.method owner name params returns))
        simpa [memberEntries, memberLines, Order.declared] using hprints
      · simpa [memberEntries, memberLines, Order.declared, howner] using Document.Prints.nil
    | _ => exact Document.Prints.nil

/-- Declarations are printed in order. -/
theorem Settled.prints_items (h : Settled script document) (hscoped : Scoped script)
    (hdepth : (opened script).length + script.countP style.owns ≤ depth) (past : List Order)
    (hsplit : script = past ++ rest) :
    List.Forall₂ (document.Prints depth 0)
      ((rest.zipIdx past.length).flatMap fun (order, index) =>
        (shown (style.place script (.own index)) order).toList)
      (paragraphs (sections script : List (Section ω))
        (rest.flatMap (Order.declared (bodies script)))) := by
  induction rest generalizing past with
  | nil => exact .nil
  | cons order rest ih =>
    have hrest := ih (past ++ [order]) (by simpa using hsplit)
    rw [List.length_append, List.length_singleton] at hrest
    rw [List.zipIdx_cons, List.flatMap_cons, List.flatMap_cons]
    have howned : order.block? = none → ∃ lower, depth = lower + 1 ∧
        (opened script).length ≤ lower := by
      intro hblock
      have hpos : 0 < script.countP style.owns :=
        List.countP_pos_iff.mpr ⟨order, by simp [hsplit], by simp [style, hblock]⟩
      exact ⟨depth - 1, by omega, by omega⟩
    cases order with
    | model name fields =>
      obtain ⟨lower, rfl, hlower⟩ := howned rfl
      obtain ⟨block, hfind, hentries⟩ := h.model hsplit
      refine .cons ?_ hrest
      refine (Document.Prints.block hfind ?_ (Document.Prints.nil.line _)).line _
      rw [hentries]
      apply (Document.Prints.texts _).append
      have hmodels : name ∈ Section.models (rest.flatMap
          (Order.declared (bodies script : Label → List (Outline ω)))) ↔
          declares name rest = true := by
        rw [mem_models, ← Bool.not_eq_false, declares_eq_false_iff]
        simp
      have hmembers := h.prints_members (ω := ω) hscoped hlower name [] rfl
      rw [← hscoped.sections_eq] at hmembers
      by_cases hdeclares : declares name rest = true
      · simpa [hmodels, hdeclares] using Document.Prints.nil
      · simpa [hmodels, hdeclares] using hmembers
    | enumeration name values =>
      obtain ⟨lower, rfl, -⟩ := howned rfl
      obtain ⟨block, hfind, hentries⟩ := h.enumeration hsplit
      refine .cons ?_ hrest
      refine (Document.Prints.block hfind ?_ (Document.Prints.nil.line _)).line _
      rw [hentries]
      exact Document.Prints.texts _
    | _ => exact hrest

theorem Settled.render_eq (h : Settled script document) (hscoped : Scoped script)
    (hsize : document.blocks.size = (style.roles script).length) :
    document.render = .ok (print (sections script : List (Section ω))) := by
  obtain ⟨block, hfind, hentries⟩ := h.root
  have hitems := h.prints_items (ω := ω) hscoped (Nat.le_refl _) [] rfl
  rw [← hscoped.sections_eq] at hitems
  have hprints := Document.Prints.intercalate hitems
  rw [length_roles] at hsize
  have hroot : document.Prints ((opened script).length + script.countP style.owns) 0
      block.entries.toList ([Line.blank].intercalate
        (paragraphs (sections script : List (Section ω)) (sections script))) := by
    rw [hentries]
    exact hprints
  have hrender := Document.renderAfter_of_prints hfind hsize hroot ""
  rwa [String.empty_append] at hrender

/-- Rendering a file gives what the script describes, or the first method without a model. -/
theorem render_eq_rendered {handles' : Label → Handle} (hscoped : Scoped script)
    (h : run handles script ({} : File) = .ok handles' file)
    (hroom : file.document.blocks.size ≤ Handle.count) :
    Step.result (File.render file) =
      Section.rendered print (sections script : List (Section ω)) := by
  have hsize := drafting.size_of_run h
  have hroom' : (style.roles script).length ≤ Handle.count := hsize ▸ hroom
  obtain ⟨hdrafted, -⟩ := drafting.holds_of_run hscoped hroom' h
  have hmembers := hdrafted.members
  rw [Section.rendered, firstStray?_eq hscoped]
  cases hstray : (membersAfter script script).firstStray? (membersAfter script script).waiting with
  | some stray =>
    rw [← hmembers] at hstray
    have hsettle : File.settle file =
        .error (.brokenReference stray.model stray.method) file := by
      simp [File.settle, Step.focus, Members.settle_of_stray file.document hstray]
    rw [File.render, Step.bind_of_error hsettle]
    rfl
  | none =>
    obtain ⟨document, hmove, hsame, hsettled⟩ := hdrafted.settled hscoped hroom' hstray
    rw [movesAfter, ← hmembers] at hmove
    rw [← hmembers] at hstray
    have hsettle : File.settle file =
        .ok () { document, members := { file.members with waiting := [] } } := by
      simp [File.settle, Step.focus, Members.settle_of_settled hstray hmove]
    have hrender := hsettled.render_eq (ω := ω) hscoped (hsame.trans hsize)
    rw [File.render, Step.bind_of_ok hsettle, Step.bind_of_ok (Step.get_apply _)]
    simp only [hrender]
    rfl

theorem renders : drafting.Renders File.render print :=
  fun _ _ _ hscoped hrun hroom => render_eq_rendered hscoped hrun hroom

end Polyglot.TypeScript
