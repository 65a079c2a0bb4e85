import Polyglot.Proofs.Drawing.Printing
import Polyglot.Proofs.Drawing.Runs
import Polyglot.Proofs.Go.Printer

/-! # Go drawings

A Go file accepts a call exactly if its clause can be spelled, and then holds what the script says:
the document, the packages that the clauses refer to, and the models and methods declared. Only
what stands between the braces of a model or the values of an enumeration has a block of its own.
-/

namespace Polyglot.Go

open Script Style

/-- The block that a declaration keeps for itself. -/
def ownBlock : Order → Block
  | .model name fields => { entries := ((details (.model name fields)).map .line).toArray }
  | .enumeration name values =>
    { entries := ((details (.enumeration name values)).map .line).toArray }
  | _ => {}

/-- What a declaration shows at the top level. -/
def shown (handles : Label → Handle) (own : Handle) : Order → Option (List Entry)
  | .model name fields => some [.line (headline (.model name fields)), .block own, .line "\x7d"]
  | .enumeration name [] => some [.line (headline (.enumeration name []))]
  | .enumeration name (first :: rest) =>
    some [.line (headline (.enumeration name (first :: rest))), .line "", .line "const (",
      .block own, .line ")"]
  | .method owner name params returns body =>
    some [.line (headline (.method owner name params returns)), .block (handles body),
      .line "\x7d"]
  | _ => none

/-- Models and enumerations with values keep a block for themselves. -/
def owns : Order → Bool
  | .model _ _ => true
  | .enumeration _ values => !values.isEmpty
  | _ => false

/-- How Go lays out a script. -/
def style : Style where
  headline := headline
  owns := owns
  own _ := ownBlock
  item := shown
  owns_of_block {order block} h := by cases order <;> simp_all [Order.block?, owns]
  item_of_block {handles handle order block} h := by cases order <;> simp_all [Order.block?, shown]
  item_ne_nil {handles handle order} := by
    cases order with
    | enumeration name values => cases values <;> simp [shown]
    | _ => simp [shown]

@[simp] theorem style_owns : style.owns = owns := rfl

@[simp] theorem style_own (handles : Label → Handle) : style.own handles = ownBlock := rfl

@[simp] theorem style_item : style.item = shown := rfl

/-- The name of the model that a call declares. -/
def modelOf : Order → Option String
  | .model name _ => some name
  | _ => none

/-- Model and name of the method that a call declares. -/
def methodOf : Order → Option (String × String)
  | .method owner name _ _ _ => some (owner, name)
  | _ => none

/-- The file holds what the first calls of a script say. -/
structure Drafted (package : String) (script past : List Order) (handles : Label → Handle)
    (file : File) : Prop where
  package_eq : file.package = package
  drawn : style.Drawn script past handles file.document
  imports : file.imports = packagesOf (past.map (Order.clause (ownerOf script)))
  models : file.models = (past.filterMap modelOf).reverse
  methods : file.methods = past.filterMap methodOf

variable {package : String} {script past rest : List Order} {order : Order}
  {handles : Label → Handle} {file : File}

theorem Drafted.start (package : String) (script : List Order) (handles : Label → Handle) :
    Drafted package script [] handles { package } where
  package_eq := rfl
  drawn := Drawn.start script handles
  imports := rfl
  models := rfl
  methods := rfl

theorem packagesOf_concat (clauses : List Clause) (clause : Clause) :
    packagesOf (clauses ++ [clause]) = (packagesOf clauses).union (packages clause) := by
  simp [packagesOf]

theorem headline_of_phrase {clause : Clause} {spelled : String × List String} {noted : Imports}
    (h : phrase clause {} = .ok spelled noted) : headline clause = spelled.1 := by
  rw [headline, h]

theorem details_of_phrase {clause : Clause} {spelled : String × List String} {noted : Imports}
    (h : phrase clause {} = .ok spelled noted) : details clause = spelled.2 := by
  rw [details, h]

theorem packages_of_phrase {clause : Clause} {spelled : String × List String} {noted : Imports}
    (h : phrase clause {} = .ok spelled noted) : packages clause = noted := by
  rw [packages, h]
  rfl

theorem onDocument_of_ok {α : Type} {step : Step Document α} {a : α} {document : Document}
    (h : step file.document = .ok a document) :
    File.onDocument step file = .ok a { file with document } :=
  Step.focus_of_ok h

theorem onImports_of_ok {α : Type} {step : Step Imports α} {a : α} {imports : Imports}
    (h : step file.imports = .ok a imports) :
    File.onImports step file = .ok a { file with imports } :=
  Step.focus_of_ok h

theorem receiverOf_of_find {document : Document} {block : Handle} {content : Block}
    {model : String} (h : document.blocks[block.index]? = some content)
    (howner : content.owner = some model) :
    receiverOf document block = .ok (receiverName model) := by
  simp [receiverOf, Document.ownerOf_of_find h, howner, bind, Except.bind, pure, Except.pure]

/-! ### Statements -/

/-- A statement starts with the receiver of its block. -/
theorem receiver_bind_eq_iff {α : Type} {block : Handle} {receiver : String}
    {next : String → Step File α} {outcome : EStateM.Result Fault File α}
    (h : receiverOf file.document block = .ok receiver) :
    (get >>= fun file : File =>
      (liftM (receiverOf file.document block) : Step File String) >>= next) file = outcome ↔
      next receiver file = outcome := by
  rw [Step.bind_of_ok (Step.get_apply file), h]
  rfl

/-- A line is spelled, and then goes into the document. -/
theorem spell_of_ok {α : Type} {spell : Step Imports String} {draw : String → Step Document α}
    {text : String} {noted : Imports} {a : α} {document : Document} (hadds : Additive spell)
    (hspell : spell {} = .ok text noted) (hdraw : draw text file.document = .ok a document) :
    (File.onImports spell >>= fun text => File.onDocument (draw text)) file =
      .ok a { file with document, imports := file.imports.union noted } := by
  have hspell' : spell file.imports = .ok text (file.imports.union noted) :=
    hadds.eq_ok_iff.mpr ⟨noted, hspell, rfl⟩
  rw [Step.bind_of_ok (onImports_of_ok hspell')]
  exact onDocument_of_ok hdraw

theorem spell_eq_ok {α : Type} {spell : Step Imports String} {draw : String → Step Document α}
    {a : α} {file' : File} (hadds : Additive spell)
    (h : (File.onImports spell >>= fun text => File.onDocument (draw text)) file = .ok a file') :
    ∃ text noted, spell {} = .ok text noted := by
  obtain ⟨text, _, hspell, -⟩ := Step.bind_eq_ok_iff.mp h
  obtain ⟨imports, hspell, -⟩ := Step.focus_eq_ok_iff.mp hspell
  obtain ⟨noted, hfresh, -⟩ := hadds.eq_ok_iff.mp hspell
  exact ⟨text, noted, hfresh⟩

theorem spelled_of_line {step : Step Imports String} {spelled : String × List String}
    {noted : Imports} (h : (do return (← step, [])) {} = EStateM.Result.ok spelled noted) :
    step {} = .ok spelled.1 noted := by
  obtain ⟨text, _, hstep, hdone⟩ := Step.bind_eq_ok_iff.mp h
  cases hdone
  exact hstep

/-- A statement that succeeds is spelled. -/
theorem Drafted.phrase_of_statement (h : Drafted package script past handles file)
    (hscoped : Scoped script) (hroom : (style.roles script).length ≤ Handle.count)
    (hsplit : script = past ++ order :: rest) {block : Label} (hblock : order.block? = some block)
    {handles' : Label → Handle} {file' : File}
    (hrun : order.run handles file = .ok handles' file') :
    ∃ spelled noted, phrase (order.clause (ownerOf script)) {} = .ok spelled noted := by
  obtain ⟨-, hfind⟩ := h.drawn.find_block hscoped hroom hsplit hblock
  have hreceiver := receiverOf_of_find hfind rfl
  cases order with
  | act outer action =>
    obtain rfl : outer = block := by simpa [Order.block?] using hblock
    obtain ⟨_, _, hact, -⟩ := Step.bind_eq_ok_iff.mp hrun
    replace hact := (receiver_bind_eq_iff hreceiver).mp hact
    obtain ⟨_, hcheck, hact⟩ := Step.lift_bind_eq_ok_iff.mp hact
    obtain ⟨text, noted, htext⟩ := spell_eq_ok (additive_actionText _ action) hact
    exact ⟨(text, []), noted, Step.lift_bind_eq_ok_iff.mpr ⟨(), hcheck, Step.bind_of_ok htext⟩⟩
  | enter outer scope body =>
    obtain rfl : outer = block := by simpa [Order.block?] using hblock
    obtain ⟨_, _, henter, -⟩ := Step.bind_eq_ok_iff.mp hrun
    replace henter := (receiver_bind_eq_iff hreceiver).mp henter
    obtain ⟨_, hcheck, henter⟩ := Step.lift_bind_eq_ok_iff.mp henter
    obtain ⟨text, noted, htext⟩ := spell_eq_ok (additive_scopeHeader _ scope) henter
    exact ⟨(text, []), noted, Step.lift_bind_eq_ok_iff.mpr ⟨(), hcheck, Step.bind_of_ok htext⟩⟩
  | branch outer condition thenBody elseBody =>
    obtain rfl : outer = block := by simpa [Order.block?] using hblock
    obtain ⟨_, _, hbranch, -⟩ := Step.bind_eq_ok_iff.mp hrun
    replace hbranch := (receiver_bind_eq_iff hreceiver).mp hbranch
    obtain ⟨text, noted, htext⟩ := spell_eq_ok (additive_conditionHeader _ condition) hbranch
    exact ⟨(text, []), noted, Step.bind_of_ok htext⟩
  | _ => simp [Order.block?] at hblock

/-- A statement that is spelled goes into the document, and its packages are noted. -/
theorem Drafted.run_statement (h : Drafted package script past handles file)
    (hscoped : Scoped script) (hroom : (style.roles script).length ≤ Handle.count)
    (hsplit : script = past ++ order :: rest) {block : Label} (hblock : order.block? = some block)
    {spelled : String × List String} {noted : Imports}
    (hspelled : phrase (order.clause (ownerOf script)) {} = .ok spelled noted) :
    order.run handles file = .ok (style.afterHandles handles file.document order)
      { file with
        document := style.after script past file.document order
        imports := file.imports.union noted } := by
  have hdraw := h.drawn.draw_eq hscoped hroom hsplit hblock
  obtain ⟨-, hfind⟩ := h.drawn.find_block hscoped hroom hsplit hblock
  have hreceiver := receiverOf_of_find hfind rfl
  have hheadline : style.headline (order.clause (ownerOf script)) = spelled.1 :=
    headline_of_phrase hspelled
  rw [hheadline] at hdraw
  cases order with
  | act outer action =>
    obtain rfl : outer = block := by simpa [Order.block?] using hblock
    obtain ⟨_, hcheck, hline⟩ := Step.lift_bind_eq_ok_iff.mp hspelled
    have htext := spelled_of_line hline
    obtain ⟨_, document, hadd, hdone⟩ := Step.bind_eq_ok_iff.mp hdraw
    injection hdone with hhandles hdocument
    have hact : Target.act (handles outer) action file = .ok () _ :=
      (receiver_bind_eq_iff hreceiver).mpr (Step.lift_bind_eq_ok_iff.mpr ⟨_, hcheck,
        spell_of_ok (additive_actionText _ action) htext hadd⟩)
    rw [Order.run, Step.bind_of_ok hact, ← hhandles, ← hdocument]
    rfl
  | enter outer scope body =>
    obtain rfl : outer = block := by simpa [Order.block?] using hblock
    obtain ⟨_, hcheck, hline⟩ := Step.lift_bind_eq_ok_iff.mp hspelled
    have hheader := spelled_of_line hline
    obtain ⟨inner, document, hopen, hdone⟩ := Step.bind_eq_ok_iff.mp hdraw
    injection hdone with hhandles hdocument
    have henter : Target.enter (handles outer) scope file = .ok inner _ :=
      (receiver_bind_eq_iff hreceiver).mpr (Step.lift_bind_eq_ok_iff.mpr ⟨_, hcheck,
        spell_of_ok (additive_scopeHeader _ scope) hheader hopen⟩)
    rw [Order.run, Step.bind_of_ok henter, ← hhandles, ← hdocument]
    rfl
  | branch outer condition thenBody elseBody =>
    obtain rfl : outer = block := by simpa [Order.block?] using hblock
    have hheader := spelled_of_line hspelled
    obtain ⟨inner, document, hopen, hdone⟩ := Step.bind_eq_ok_iff.mp hdraw
    injection hdone with hhandles hdocument
    have hbranch : Target.branch (handles outer) condition file = .ok inner _ :=
      (receiver_bind_eq_iff hreceiver).mpr
        (spell_of_ok (additive_conditionHeader _ condition) hheader hopen)
    rw [Order.run, Step.bind_of_ok hbranch, ← hhandles, ← hdocument]
    rfl
  | _ => simp [Order.block?] at hblock

/-! ### Declarations -/

section
variable {block : Block}

theorem model_of_find (hlt : file.document.blocks.size < Handle.count)
    (hroot : file.document.blocks[Handle.root.index]? = some block) {name : String}
    {fields : List Field} {texts : List String} (htexts : paramTexts fields = .ok texts) :
    Target.model name fields file = .ok ()
      { file with
        document := (file.document.append .root (Document.separator block.entries.toList ++
          [.line ("type " ++ name ++ " struct \x7b"), .block (.next file.document.blocks.size),
            .line "\x7d"])).extend [{ entries := (texts.map .line).toArray }]
        models := name :: file.models } := by
  have hrootLt := (Array.getElem?_eq_some_iff.mp hroot).1
  have hbody := Nat.lt_succ_of_le (Handle.index_next_le file.document.blocks.size)
  have hplace := (Document.newBlock_separate hlt hroot texts fun body =>
    Document.place ("type " ++ name ++ " struct \x7b") body "\x7d").trans
      (Document.place_extend hrootLt hbody _ _)
  refine Step.lift_bind_eq_ok_iff.mpr ⟨texts, htexts, ?_⟩
  exact Step.bind_of_ok (onDocument_of_ok hplace)

theorem enumeration_nil_of_find (hroot : file.document.blocks[Handle.root.index]? = some block)
    (name : String) :
    Target.enumeration name [] file = .ok ()
      { file with
        document := file.document.append .root (Document.separator block.entries.toList ++
          [.line ("type " ++ name ++ " int")]) } := by
  have hrootLt := (Array.getElem?_eq_some_iff.mp hroot).1
  apply onDocument_of_ok
  rw [Step.bind_of_ok (Document.separate_of_find hroot),
    Step.bind_of_ok (Document.addLine_of_lt (by simpa using hrootLt) _), Document.append_append]
  rfl

theorem enumeration_cons_of_find (hlt : file.document.blocks.size < Handle.count)
    (hroot : file.document.blocks[Handle.root.index]? = some block) (name first : String)
    (rest : List String) :
    Target.enumeration name (first :: rest) file = .ok ()
      { file with
        document := (file.document.append .root (Document.separator block.entries.toList ++
          [.line ("type " ++ name ++ " int"), .line "", .line "const (",
            .block (.next file.document.blocks.size), .line ")"])).extend
            [{ entries := ((enumLines name (first :: rest)).map .line).toArray }] } := by
  have hrootLt := (Array.getElem?_eq_some_iff.mp hroot).1
  have hnext := Handle.index_next_le file.document.blocks.size
  apply onDocument_of_ok
  rw [Step.bind_of_ok (Document.separate_of_find hroot),
    Step.bind_of_ok (Document.addLine_of_lt (by simpa using hrootLt) _), Document.append_append]
  change (Document.newBlock none >>= fun body => Document.addLines body _ >>= fun _ =>
    Document.addLine .root "" >>= fun _ => Document.place "const (" body ")") _ = _
  rw [Document.newBlock_addLines (by simpa using hlt),
    Step.bind_of_ok (Document.addLine_of_lt (by simp; omega) _),
    Document.append_extend (by simpa using hrootLt), Document.append_append, Document.size_append,
    Document.place_extend (by simpa using hrootLt) (by simp; omega)]
  simp

theorem method_of_find (hroot : file.document.blocks[Handle.root.index]? = some block)
    {owner name signature : String} {params : List Field} {returns : Option Ty}
    (hsignature : signatureText params returns = .ok signature)
    (hcheck : checkBindings (receiverName owner) (params.map (·.name)) = .ok ()) :
    Target.method owner name params returns file = .ok (.next file.document.blocks.size)
      { file with
        document := (file.document.append .root (Document.separator block.entries.toList ++
          [.line ("func (" ++ receiverName owner ++ " *" ++ owner ++ ") " ++ name ++ signature ++
            " \x7b"), .block (.next file.document.blocks.size), .line "\x7d"])).extend
              [{ owner := some owner }]
        methods := file.methods ++ [(owner, name)] } := by
  have hrootLt := (Array.getElem?_eq_some_iff.mp hroot).1
  have hbody := Nat.lt_succ_of_le (Handle.index_next_le file.document.blocks.size)
  have hplace : ∀ header, (do
      let body ← Document.newBlock (some owner)
      Document.separate
      Document.place header body "\x7d"
      return body) file.document = _ := fun header =>
    (Step.bind_of_ok (file.document.newBlock_eq_extend (some owner))).trans
      ((Step.bind_of_ok (Document.separate_extend hroot _)).trans
        (Step.bind_of_ok (Document.place_extend hrootLt hbody header "\x7d")))
  refine Step.lift_bind_eq_ok_iff.mpr ⟨signature, hsignature, ?_⟩
  refine Step.lift_bind_eq_ok_iff.mpr ⟨(), hcheck, ?_⟩
  exact Step.bind_of_ok (onDocument_of_ok (hplace _))

end

variable (script past) in
/-- The file after a further call that notes the given packages. -/
def fileAfter (file : File) (noted : Imports) (order : Order) : File :=
  { file with
    document := style.after script past file.document order
    imports := file.imports.union noted
    models := (modelOf order).toList ++ file.models
    methods := file.methods ++ (methodOf order).toList }

/-- A declaration that is spelled goes into the document. -/
theorem Drafted.run_declaration (h : Drafted package script past handles file)
    (hscoped : Scoped script) (hroom : (style.roles script).length ≤ Handle.count)
    (hsplit : script = past ++ order :: rest) (hblock : order.block? = none)
    {spelled : String × List String} {noted : Imports}
    (hspelled : phrase (order.clause (ownerOf script)) {} = .ok spelled noted) :
    order.run handles file = .ok (style.afterHandles handles file.document order)
      (fileAfter script past file noted order) := by
  have hroot := h.drawn.find_root hscoped hroom hsplit
  have hlt := fun howns => h.drawn.size_lt hroom hsplit howns
  have hown := fun howns => h.drawn.place_own hscoped hsplit howns
  have hheadline : headline (order.clause (ownerOf script)) = spelled.1 :=
    headline_of_phrase hspelled
  have hdetails : details (order.clause (ownerOf script)) = spelled.2 :=
    details_of_phrase hspelled
  simp only [fileAfter, after, afterHandles, news, added, spot, hblock, place_root, style_own,
    style_item, style_owns]
  cases order with
  | model name fields =>
    obtain ⟨texts, htexts, hdone⟩ := Step.lift_bind_eq_ok_iff.mp hspelled
    cases hdone
    rw [Order.run, Step.bind_of_ok (model_of_find (hlt rfl) hroot htexts)]
    rw [Order.clause] at hheadline hdetails
    simp [shown, owns, ownBlock, modelOf, methodOf, hheadline, hdetails, hown rfl, Order.opened,
      bindAll, content]
  | enumeration name values =>
    cases hspelled
    cases values with
    | nil =>
      rw [Order.run, Step.bind_of_ok (enumeration_nil_of_find hroot name)]
      rw [Order.clause] at hheadline
      simp [shown, owns, modelOf, methodOf, hheadline, Order.opened, bindAll, content]
    | cons first rest =>
      rw [Order.run, Step.bind_of_ok (enumeration_cons_of_find (hlt rfl) hroot name first rest)]
      rw [Order.clause] at hheadline hdetails
      simp [shown, owns, ownBlock, modelOf, methodOf, hheadline, hdetails, hown rfl, Order.opened,
        bindAll, content]
  | method owner name params returns body =>
    obtain ⟨signature, hsignature, hrest⟩ := Step.lift_bind_eq_ok_iff.mp hspelled
    obtain ⟨_, hcheck, hdone⟩ := Step.lift_bind_eq_ok_iff.mp hrest
    cases hdone
    have hopened : (Order.method owner name params returns body).opened[0]? = some body := rfl
    have hbody := h.drawn.place_opened hscoped hsplit hopened
    have howner := hscoped.ownerOf_method hsplit
    rw [Order.run, Step.bind_of_ok (method_of_find hroot hsignature hcheck)]
    rw [Order.clause] at hheadline
    simp [shown, owns, modelOf, methodOf, hheadline, hbody, howner, Order.opened, bindAll, content]
  | _ => simp [Order.block?] at hblock

/-- A call that succeeds is spelled. -/
theorem Drafted.phrase_of_run (h : Drafted package script past handles file)
    (hscoped : Scoped script) (hroom : (style.roles script).length ≤ Handle.count)
    (hsplit : script = past ++ order :: rest) {handles' : Label → Handle} {file' : File}
    (hrun : order.run handles file = .ok handles' file') :
    ∃ spelled noted, phrase (order.clause (ownerOf script)) {} = .ok spelled noted := by
  cases hblock : order.block? with
  | some block => exact h.phrase_of_statement hscoped hroom hsplit hblock hrun
  | none =>
    cases order with
    | model name fields =>
      obtain ⟨_, _, hmodel, -⟩ := Step.bind_eq_ok_iff.mp hrun
      obtain ⟨texts, htexts, -⟩ := Step.lift_bind_eq_ok_iff.mp hmodel
      exact ⟨_, _, Step.lift_bind_eq_ok_iff.mpr ⟨texts, htexts, rfl⟩⟩
    | enumeration name values => exact ⟨_, _, rfl⟩
    | method owner name params returns body =>
      obtain ⟨_, _, hmethod, -⟩ := Step.bind_eq_ok_iff.mp hrun
      obtain ⟨signature, hsignature, hmethod⟩ := Step.lift_bind_eq_ok_iff.mp hmethod
      obtain ⟨_, hcheck, -⟩ := Step.lift_bind_eq_ok_iff.mp hmethod
      exact ⟨_, _, Step.lift_bind_eq_ok_iff.mpr ⟨signature, hsignature,
        Step.lift_bind_eq_ok_iff.mpr ⟨(), hcheck, rfl⟩⟩⟩
    | _ => simp [Order.block?] at hblock

theorem Drafted.step (h : Drafted package script past handles file) (hscoped : Scoped script)
    (hroom : (style.roles script).length ≤ Handle.count) (hsplit : script = past ++ order :: rest)
    {spelled : String × List String} {noted : Imports}
    (hspelled : phrase (order.clause (ownerOf script)) {} = .ok spelled noted) :
    ∃ handles' file', order.run handles file = .ok handles' file' ∧
      Drafted package script (past ++ [order]) handles' file' := by
  have hrun : order.run handles file = .ok (style.afterHandles handles file.document order)
      (fileAfter script past file noted order) := by
    cases hblock : order.block? with
    | none => exact h.run_declaration hscoped hroom hsplit hblock hspelled
    | some block =>
      rw [h.run_statement hscoped hroom hsplit hblock hspelled]
      cases order <;> simp_all [Order.block?, fileAfter, modelOf, methodOf]
  refine ⟨_, _, hrun, h.package_eq, h.drawn.step hscoped hroom hsplit, ?_, ?_, ?_⟩
  · rw [List.map_append, List.map_singleton, packagesOf_concat, packages_of_phrase hspelled,
      ← h.imports]
    rfl
  · cases hmodel : modelOf order <;> simp [fileAfter, h.models, hmodel]
  · cases hmethod : methodOf order <;> simp [fileAfter, h.methods, hmethod]

/-! ### Counting blocks -/

section
open Document Step

theorem adds_onDocument {α : Type} {amount : Nat} {step : Step Document α}
    (h : Allocates amount step) :
    Adds (fun file : File => file.document.blocks.size) amount (File.onDocument step) :=
  Adds.focus (fun _ _ => rfl) h

theorem adds_onImports {α : Type} (step : Step Imports α) :
    Adds (fun file : File => file.document.blocks.size) 0 (File.onImports step) := by
  intro file a file' h
  obtain ⟨_, -, rfl⟩ := focus_eq_ok_iff.mp h
  rfl

/-- A call adds the blocks that the style says. -/
theorem adds_run (handles : Label → Handle) (order : Order) (index : Nat) :
    Adds (fun file : File => file.document.blocks.size) (style.rolesOf order index).length
      (order.run handles) := by
  cases order with
  | model name fields =>
    refine Adds.bind (m := 1) (n := 0) ?_ fun _ => Adds.pure handles
    refine Adds.after (Adds.ofExcept (paramTexts fields)) fun texts => ?_
    refine Adds.bind (m := 1) (n := 0) (adds_onDocument ?_) fun _ => Adds.modify fun _ => rfl
    refine Adds.bind (n := 0) (allocates_newBlock none) fun body => ?_
    refine Adds.after (allocates_addLines body _) fun _ => ?_
    exact Adds.after allocates_separate fun _ => allocates_place _ body _
  | enumeration name values =>
    cases values with
    | nil =>
      refine Adds.after (adds_onDocument ?_) fun _ => Adds.pure handles
      refine Adds.after allocates_separate fun _ => ?_
      exact Adds.after (allocates_addLine .root _) fun _ => Adds.pure ()
    | cons first rest =>
      refine Adds.bind (m := 1) (n := 0) (adds_onDocument ?_) fun _ => Adds.pure handles
      refine Adds.after allocates_separate fun _ => ?_
      refine Adds.after (allocates_addLine .root _) fun _ => ?_
      refine Adds.bind (n := 0) (allocates_newBlock none) fun body => ?_
      refine Adds.after (allocates_addLines body _) fun _ => ?_
      exact Adds.after (allocates_addLine .root _) fun _ => allocates_place _ body _
  | method owner name params returns body =>
    refine Adds.bind (m := 1) (n := 0) ?_ fun _ => Adds.pure _
    refine Adds.after (Adds.ofExcept (signatureText params returns)) fun signature => ?_
    refine Adds.after (Adds.ofExcept (checkBindings _ _)) fun _ => ?_
    refine Adds.bind (m := 1) (n := 0) (adds_onDocument ?_) fun inner => ?_
    · refine Adds.bind (n := 0) (allocates_newBlock (some owner)) fun inner => ?_
      refine Adds.after allocates_separate fun _ => ?_
      exact Adds.after (allocates_place _ inner _) fun _ => Adds.pure inner
    · exact Adds.after (Adds.modify fun _ => rfl) fun _ => Adds.pure inner
  | act block action =>
    refine Adds.after ?_ fun _ => Adds.pure handles
    refine Adds.after Adds.get fun file => ?_
    refine Adds.after (Adds.ofExcept (receiverOf file.document _)) fun receiver => ?_
    refine Adds.after (Adds.ofExcept (checkBindings receiver _)) fun _ => ?_
    exact Adds.after (adds_onImports _) fun text => adds_onDocument (allocates_addLine _ text)
  | enter block scope body =>
    refine Adds.bind (m := 1) (n := 0) ?_ fun _ => Adds.pure _
    refine Adds.after Adds.get fun file => ?_
    refine Adds.after (Adds.ofExcept (receiverOf file.document _)) fun receiver => ?_
    refine Adds.after (Adds.ofExcept (checkBindings receiver _)) fun _ => ?_
    exact Adds.after (adds_onImports _) fun header =>
      adds_onDocument (allocates_openScope _ header _)
  | branch block condition thenBody elseBody =>
    refine Adds.bind (m := 2) (n := 0) ?_ fun _ => Adds.pure _
    refine Adds.after Adds.get fun file => ?_
    refine Adds.after (Adds.ofExcept (receiverOf file.document _)) fun receiver => ?_
    exact Adds.after (adds_onImports _) fun header =>
      adds_onDocument (allocates_openScopes _ header _ _)

end

/-- The number of blocks that a clause takes. -/
def width : Clause → Nat
  | .enumeration _ values => if values.isEmpty then 0 else 1
  | .model _ _ | .method _ _ _ _ | .enter _ _ => 1
  | .branch _ _ => 2
  | .act _ _ => 0

theorem length_rolesOf (owners : Label → String) (order : Order) (index : Nat) :
    (style.rolesOf order index).length = width (order.clause owners) := by
  cases order with
  | enumeration name values => cases values <;> rfl
  | _ => rfl

/-- Go files are drawn in their style. -/
def drafting (package : String) : Drafting style File where
  fresh := { package }
  size file := file.document.blocks.size
  width := width
  Accepts clause := ∃ spelled noted, phrase clause {} = .ok spelled noted
  Holds := Drafted package
  start := Drafted.start package
  step hscoped hroom hsplit h := fun ⟨_, _, hspelled⟩ => h.step hscoped hroom hsplit hspelled
  accepts hscoped hroom hsplit h hrun := h.phrase_of_run hscoped hroom hsplit hrun
  size_fresh := rfl
  adds := adds_run
  length_rolesOf := length_rolesOf

end Polyglot.Go
