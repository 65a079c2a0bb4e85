import Polyglot.Proofs.Drawing.Printing
import Polyglot.Proofs.Drawing.Runs
import Polyglot.Proofs.TypeScript.Printer

/-! # TypeScript drawings

A TypeScript file accepts a call exactly if its clause can be spelled, and then holds what the
script says. Every declaration keeps a block for itself: models and enumerations for what stands
between their braces, methods for all of their lines until the file is rendered.
-/

namespace Polyglot.TypeScript

open Script Style

/-- The block that a declaration keeps for itself. -/
def ownBlock (handles : Label → Handle) : Order → Block
  | .model name fields => { entries := ((details (.model name fields)).map .line).toArray }
  | .enumeration name values =>
    { entries := ((details (.enumeration name values)).map .line).toArray }
  | .method owner name params returns body =>
    { owner := some owner
      entries := #[.line (headline (.method owner name params returns)), .block (handles body),
        .line "\x7d"] }
  | _ => {}

/-- What a declaration shows at the top level. -/
def shown (own : Handle) : Order → Option (List Entry)
  | .model name fields => some [.line (headline (.model name fields)), .block own, .line "\x7d"]
  | .enumeration name values =>
    some [.line (headline (.enumeration name values)), .block own, .line "\x7d"]
  | _ => none

/-- How TypeScript lays out a script. -/
def style : Style where
  headline := headline
  owns order := order.block?.isNone
  own := ownBlock
  item _ := shown
  owns_of_block h := by simp [h]
  item_of_block {handles handle order block} h := by cases order <;> simp_all [Order.block?, shown]
  item_ne_nil {handles handle order} := by cases order <;> simp [shown]

@[simp] theorem style_headline : style.headline = headline := rfl

@[simp] theorem style_own : style.own = ownBlock := rfl

@[simp] theorem style_item (handles : Label → Handle) : style.item handles = shown := rfl

/-- The members after a declaration with a block of its own. -/
def noted (members : Members) (handle : Handle) : Order → Members
  | .model name _ => members.register name handle
  | .method owner name _ _ _ => members.defer { model := owner, method := name, block := handle }
  | _ => members

/-- The members after the first calls of a script. -/
def membersAfter (script past : List Order) : Members :=
  past.zipIdx.foldl (fun members (order, index) =>
    noted members (style.place script (.own index)) order) {}

/-- The file holds what the first calls of a script say. -/
structure Drafted (script past : List Order) (handles : Label → Handle) (file : File) : Prop where
  drawn : style.Drawn script past handles file.document
  members : file.members = membersAfter script past

variable {script past rest : List Order} {order : Order} {handles : Label → Handle} {file : File}

theorem Drafted.start (script : List Order) (handles : Label → Handle) :
    Drafted script [] handles {} where
  drawn := Drawn.start script handles
  members := rfl

theorem membersAfter_concat : membersAfter script (past ++ [order]) =
    noted (membersAfter script past) (style.place script (.own past.length)) order := by
  simp [membersAfter, List.zipIdx_append]

/-- A call that succeeds is spelled. -/
theorem phrase_of_run (owners : Label → String) {handles' : Label → Handle} {file' : File}
    (h : order.run handles file = .ok handles' file') :
    ∃ spelled, phrase (order.clause owners) = .ok spelled := by
  cases order with
  | model name fields =>
    obtain ⟨_, _, hmodel, -⟩ := Step.bind_eq_ok_iff.mp h
    obtain ⟨texts, htexts, -⟩ := Step.lift_bind_eq_ok_iff.mp hmodel
    exact ⟨_, by rw [Order.clause, phrase, htexts]; rfl⟩
  | enumeration name values => exact ⟨_, rfl⟩
  | method owner name params returns body =>
    obtain ⟨_, _, hmethod, -⟩ := Step.bind_eq_ok_iff.mp h
    obtain ⟨header, hheader, -⟩ := Step.lift_bind_eq_ok_iff.mp hmethod
    exact ⟨_, by rw [Order.clause, phrase, hheader]; rfl⟩
  | act block action =>
    obtain ⟨_, _, hact, -⟩ := Step.bind_eq_ok_iff.mp h
    obtain ⟨text, htext, -⟩ := Step.lift_bind_eq_ok_iff.mp hact
    exact ⟨_, by rw [Order.clause, phrase, htext]; rfl⟩
  | enter block scope body =>
    obtain ⟨_, _, henter, -⟩ := Step.bind_eq_ok_iff.mp h
    obtain ⟨header, hheader, -⟩ := Step.lift_bind_eq_ok_iff.mp henter
    exact ⟨_, by rw [Order.clause, phrase, hheader]; rfl⟩
  | branch block condition thenBody elseBody =>
    obtain ⟨_, _, hbranch, -⟩ := Step.bind_eq_ok_iff.mp h
    obtain ⟨header, hheader, -⟩ := Step.lift_bind_eq_ok_iff.mp hbranch
    exact ⟨_, by rw [Order.clause, phrase, hheader]; rfl⟩

theorem headline_of_phrase {clause : Clause} {spelled : String × List String}
    (h : phrase clause = .ok spelled) : headline clause = spelled.1 := by
  rw [headline, h]

theorem details_of_phrase {clause : Clause} {spelled : String × List String}
    (h : phrase clause = .ok spelled) : details clause = spelled.2 := by
  rw [details, h]

theorem line_of_spelled {outcome : Except Fault String} {spelled : String × List String}
    (h : (do return (← outcome, [])) = Except.ok spelled) : outcome = .ok spelled.1 := by
  cases outcome with
  | ok text =>
    injection h with h
    rw [← h]
  | error fault => cases h

theorem checkInMethod_of_find {document : Document} {block : Handle} {content : Block}
    {model : String} (h : document.blocks[block.index]? = some content)
    (howner : content.owner = some model) : checkInMethod block document = .ok () document := by
  rw [checkInMethod, Step.bind_of_ok (Step.get_apply document), Document.ownerOf_of_find h, howner]
  rfl

/-- A statement that is spelled goes into the document. -/
theorem Drafted.run_statement (h : Drafted script past handles file) (hscoped : Scoped script)
    (hroom : (style.roles script).length ≤ Handle.count) (hsplit : script = past ++ order :: rest)
    {block : Label} (hblock : order.block? = some block) {spelled : String × List String}
    (hspelled : phrase (order.clause (ownerOf script)) = .ok spelled) :
    order.run handles file = .ok (style.afterHandles handles file.document order)
      { file with document := style.after script past file.document order } := by
  have hdraw := h.drawn.draw_eq hscoped hroom hsplit hblock
  obtain ⟨-, hfind⟩ := h.drawn.find_block hscoped hroom hsplit hblock
  have hcheck := checkInMethod_of_find hfind rfl
  have hheadline : style.headline (order.clause (ownerOf script)) = spelled.1 :=
    headline_of_phrase hspelled
  rw [hheadline] at hdraw
  cases order with
  | act outer action =>
    obtain rfl : outer = block := by simpa [Order.block?] using hblock
    have htext : actionText action = .ok spelled.1 := line_of_spelled hspelled
    obtain ⟨_, document, hadd, hdone⟩ := Step.bind_eq_ok_iff.mp hdraw
    injection hdone with hhandles hdocument
    have hact : Target.act (handles outer) action file = .ok () _ :=
      Step.lift_bind_eq_ok_iff.mpr
        ⟨_, htext, Step.focus_of_ok ((Step.bind_of_ok hcheck).trans hadd)⟩
    rw [Order.run, Step.bind_of_ok hact, ← hhandles, ← hdocument]
    rfl
  | enter outer scope body =>
    obtain rfl : outer = block := by simpa [Order.block?] using hblock
    have hheader : scopeHeader scope = .ok spelled.1 := line_of_spelled hspelled
    obtain ⟨inner, document, hopen, hdone⟩ := Step.bind_eq_ok_iff.mp hdraw
    injection hdone with hhandles hdocument
    have henter : Target.enter (handles outer) scope file = .ok inner _ :=
      Step.lift_bind_eq_ok_iff.mpr
        ⟨_, hheader, Step.focus_of_ok ((Step.bind_of_ok hcheck).trans hopen)⟩
    rw [Order.run, Step.bind_of_ok henter, ← hhandles, ← hdocument]
    rfl
  | branch outer condition thenBody elseBody =>
    obtain rfl : outer = block := by simpa [Order.block?] using hblock
    have hheader : conditionHeader condition = .ok spelled.1 := line_of_spelled hspelled
    obtain ⟨inner, document, hopen, hdone⟩ := Step.bind_eq_ok_iff.mp hdraw
    injection hdone with hhandles hdocument
    have hbranch : Target.branch (handles outer) condition file = .ok inner _ :=
      Step.lift_bind_eq_ok_iff.mpr
        ⟨_, hheader, Step.focus_of_ok ((Step.bind_of_ok hcheck).trans hopen)⟩
    rw [Order.run, Step.bind_of_ok hbranch, ← hhandles, ← hdocument]
    rfl
  | _ => simp [Order.block?] at hblock

/-! ### Declarations -/

section
variable {block : Block}

theorem onDocument_of_ok {α : Type} {step : Step Document α} {a : α} {document : Document}
    (h : step file.document = .ok a document) :
    File.onDocument step file = .ok a { file with document } :=
  Step.focus_of_ok h

theorem model_of_find (hlt : file.document.blocks.size < Handle.count)
    (hroot : file.document.blocks[Handle.root.index]? = some block) {name : String}
    {fields : List Field} {texts : List String} (htexts : paramTexts fields = .ok texts) :
    Target.model name fields file = .ok ()
      { document := (file.document.append .root (Document.separator block.entries.toList ++
          [.line ("export class " ++ name ++ " \x7b"), .block (.next file.document.blocks.size),
            .line "\x7d"])).extend [{ entries := ((texts.map (· ++ ";")).map .line).toArray }]
        members := file.members.register name (.next file.document.blocks.size) } := by
  have hrootLt := (Array.getElem?_eq_some_iff.mp hroot).1
  have hnext := Handle.index_next_le file.document.blocks.size
  refine Step.lift_bind_eq_ok_iff.mpr ⟨texts, htexts, ?_⟩
  refine Eq.trans (Step.bind_of_ok (onDocument_of_ok ?_)) (Step.modify_apply ..)
  rw [Document.newBlock_separate hlt hroot]
  exact Step.bind_of_ok (Document.place_extend hrootLt (by simp; omega) _ _)

theorem enumeration_of_find (hlt : file.document.blocks.size < Handle.count)
    (hroot : file.document.blocks[Handle.root.index]? = some block) (name : String)
    (values : List String) :
    Target.enumeration name values file = .ok ()
      { file with
        document := (file.document.append .root (Document.separator block.entries.toList ++
          [.line ("export enum " ++ name ++ " \x7b"), .block (.next file.document.blocks.size),
            .line "\x7d"])).extend [{ entries := ((enumLines values).map .line).toArray }] } := by
  have hrootLt := (Array.getElem?_eq_some_iff.mp hroot).1
  have hnext := Handle.index_next_le file.document.blocks.size
  apply onDocument_of_ok
  rw [Document.newBlock_separate hlt hroot]
  exact Document.place_extend hrootLt (by simp; omega) _ _

theorem method_of_lt (hlt : file.document.blocks.size < Handle.count) {owner name header : String}
    {params : List Field} {returns : Option Ty}
    (hheader : methodHeader name params returns = .ok header) :
    Target.method owner name params returns file =
      .ok (.next (file.document.blocks.size + 1))
        { document := file.document.extend
            [{ owner := some owner
               entries := #[.line header, .block (.next (file.document.blocks.size + 1)),
                .line "\x7d"] }, { owner := some owner }]
          members := file.members.defer
            { model := owner, method := name, block := .next file.document.blocks.size } } := by
  have hmember := Handle.index_next hlt
  have hbody := Handle.index_next_le (file.document.blocks.size + 1)
  have hnew := file.document.newBlock_eq_extend (some owner)
  have hfind : (file.document.extend [{ owner := some owner }]).blocks[
      (Handle.next file.document.blocks.size).index]? = some { owner := some owner } := by
    simp [hmember, Document.extend]
  have hinner := Document.newBlockIn_of_find hfind
  refine Step.lift_bind_eq_ok_iff.mpr ⟨header, hheader, ?_⟩
  refine Eq.trans (Step.bind_of_ok (onDocument_of_ok (a := (_, _)) ?_)) rfl
  rw [Step.bind_of_ok hnew, Step.bind_of_ok hinner,
    Step.bind_of_ok (Document.addLine_of_lt (by simp; omega) header),
    Step.bind_of_ok (Document.addBlock_of_lt (by simp; omega) (by simp; omega)),
    Step.bind_of_ok (Document.addLine_of_lt (by simp; omega) "\x7d"), Document.append_append,
    Document.append_append, Document.append_extend (by simp; omega),
    Document.append_extend_next hlt, Document.extend_extend]
  simp [Document.extend]

end

/-- A declaration that is spelled goes into the document, and members are noted. -/
theorem Drafted.run_declaration (h : Drafted script past handles file) (hscoped : Scoped script)
    (hroom : (style.roles script).length ≤ Handle.count) (hsplit : script = past ++ order :: rest)
    (hblock : order.block? = none) {spelled : String × List String}
    (hspelled : phrase (order.clause (ownerOf script)) = .ok spelled) :
    order.run handles file = .ok (style.afterHandles handles file.document order)
      { document := style.after script past file.document order
        members := noted file.members (style.place script (.own past.length)) order } := by
  have howns : style.owns order = true := by simp [style, hblock]
  have hlt := h.drawn.size_lt hroom hsplit howns
  have hroot := h.drawn.find_root hscoped hroom hsplit
  have hown := h.drawn.place_own hscoped hsplit howns
  have hheadline : headline (order.clause (ownerOf script)) = spelled.1 :=
    headline_of_phrase hspelled
  have hdetails : details (order.clause (ownerOf script)) = spelled.2 :=
    details_of_phrase hspelled
  simp only [after, afterHandles, news, added, spot, hblock, howns, place_root, hown, if_true]
  cases order with
  | model name fields =>
    obtain ⟨texts, htexts, rfl⟩ : ∃ texts, paramTexts fields = .ok texts ∧
        spelled = ("export class " ++ name ++ " \x7b", texts.map (· ++ ";")) := by
      cases htexts : paramTexts fields with
      | ok texts =>
        rw [Order.clause, phrase, htexts] at hspelled
        exact ⟨texts, rfl, (Except.ok.inj hspelled).symm⟩
      | error fault =>
        rw [Order.clause, phrase, htexts] at hspelled
        cases hspelled
    rw [Order.run, Step.bind_of_ok (model_of_find hlt hroot htexts)]
    rw [Order.clause] at hheadline hdetails
    simp [shown, ownBlock, hheadline, hdetails, Order.opened, bindAll, noted, content]
  | enumeration name values =>
    rw [Order.run, Step.bind_of_ok (enumeration_of_find hlt hroot name values)]
    rfl
  | method owner name params returns body =>
    have hheader : methodHeader name params returns = .ok spelled.1 := line_of_spelled hspelled
    have hopened : (Order.method owner name params returns body).opened[0]? = some body := rfl
    have hbody := h.drawn.place_opened hscoped hsplit hopened
    have howner := hscoped.ownerOf_method hsplit
    rw [howns, if_pos rfl] at hbody
    rw [Order.run, Step.bind_of_ok (method_of_lt hlt hheader)]
    rw [Order.clause] at hheadline
    simp [shown, ownBlock, hheadline, hbody, howner, Order.opened, bindAll, noted]
  | _ => simp [Order.block?] at hblock

theorem Drafted.step (h : Drafted script past handles file) (hscoped : Scoped script)
    (hroom : (style.roles script).length ≤ Handle.count) (hsplit : script = past ++ order :: rest)
    {spelled : String × List String}
    (hspelled : phrase (order.clause (ownerOf script)) = .ok spelled) :
    ∃ handles' file', order.run handles file = .ok handles' file' ∧
      Drafted script (past ++ [order]) handles' file' := by
  have hdrawn := h.drawn.step hscoped hroom hsplit
  cases hblock : order.block? with
  | none =>
    refine ⟨_, _, h.run_declaration hscoped hroom hsplit hblock hspelled, hdrawn, ?_⟩
    rw [membersAfter_concat, h.members]
  | some block =>
    refine ⟨_, _, h.run_statement hscoped hroom hsplit hblock hspelled, hdrawn, ?_⟩
    rw [membersAfter_concat, h.members]
    cases order <;> simp_all [Order.block?, noted]

/-! ### Counting blocks -/

section
open Document Step

theorem adds_onDocument {α : Type} {amount : Nat} {step : Step Document α}
    (h : Allocates amount step) :
    Adds (fun file : File => file.document.blocks.size) amount (File.onDocument step) :=
  Adds.focus (fun _ _ => rfl) h

theorem allocates_checkInMethod (block : Handle) : Allocates 0 (checkInMethod block) := by
  refine Adds.after Adds.get fun document => ?_
  refine Adds.after (Adds.ofExcept (document.ownerOf block)) fun owner => ?_
  cases owner with
  | some model => exact Adds.pure ()
  | none => rintro _ _ _ ⟨⟩

/-- A call adds the blocks that the style says. -/
theorem adds_run (handles : Label → Handle) (order : Order) (index : Nat) :
    Adds (fun file : File => file.document.blocks.size) (style.rolesOf order index).length
      (order.run handles) := by
  cases order with
  | model name fields =>
    refine Adds.bind (m := 1) (n := 0) ?_ fun _ => Adds.pure handles
    refine Adds.after (Adds.ofExcept (paramTexts fields)) fun texts => ?_
    refine Adds.bind (m := 1) (n := 0) (adds_onDocument ?_) fun _ => Adds.modify fun _ => rfl
    refine Adds.bind (n := 0) (allocates_newBlock none) fun body => ?_
    refine Adds.after (allocates_addLines body _) fun _ => ?_
    refine Adds.after allocates_separate fun _ => ?_
    exact Adds.after (allocates_place _ body _) fun _ => Adds.pure body
  | enumeration name values =>
    refine Adds.bind (m := 1) (n := 0) (adds_onDocument ?_) fun _ => Adds.pure handles
    refine Adds.bind (n := 0) (allocates_newBlock none) fun body => ?_
    refine Adds.after (allocates_addLines body _) fun _ => ?_
    exact Adds.after allocates_separate fun _ => allocates_place _ body _
  | method owner name params returns body =>
    refine Adds.bind (m := 2) (n := 0) ?_ fun _ => Adds.pure _
    refine Adds.after (Adds.ofExcept (methodHeader name params returns)) fun header => ?_
    refine Adds.bind (m := 2) (n := 0) (adds_onDocument ?_) fun blocks => ?_
    · refine Adds.bind (n := 1) (allocates_newBlock (some owner)) fun member => ?_
      refine Adds.bind (n := 0) (allocates_newBlockIn member) fun inner => ?_
      refine Adds.after (allocates_addLine member header) fun _ => ?_
      refine Adds.after (allocates_addBlock member inner) fun _ => ?_
      exact Adds.after (allocates_addLine member "\x7d") fun _ => Adds.pure (member, inner)
    · exact Adds.after (Adds.modify fun _ => rfl) fun _ => Adds.pure _
  | act block action =>
    refine Adds.after ?_ fun _ => Adds.pure handles
    refine Adds.after (Adds.ofExcept (actionText action)) fun text => adds_onDocument ?_
    exact Adds.after (allocates_checkInMethod _) fun _ => allocates_addLine _ text
  | enter block scope body =>
    refine Adds.bind (m := 1) (n := 0) ?_ fun _ => Adds.pure _
    refine Adds.after (Adds.ofExcept (scopeHeader scope)) fun header => adds_onDocument ?_
    exact Adds.after (allocates_checkInMethod _) fun _ => allocates_openScope _ header _
  | branch block condition thenBody elseBody =>
    refine Adds.bind (m := 2) (n := 0) ?_ fun _ => Adds.pure _
    refine Adds.after (Adds.ofExcept (conditionHeader condition)) fun header => adds_onDocument ?_
    exact Adds.after (allocates_checkInMethod _) fun _ => allocates_openScopes _ header _ _

end

/-- The number of blocks that a clause takes. -/
def width : Clause → Nat
  | .model _ _ | .enumeration _ _ | .enter _ _ => 1
  | .method _ _ _ _ | .branch _ _ => 2
  | .act _ _ => 0

theorem length_rolesOf (owners : Label → String) (order : Order) (index : Nat) :
    (style.rolesOf order index).length = width (order.clause owners) := by
  cases order <;> rfl

/-- TypeScript files are drawn in their style. -/
def drafting : Drafting style File where
  fresh := {}
  size file := file.document.blocks.size
  width := width
  Accepts clause := ∃ spelled, phrase clause = .ok spelled
  Holds := Drafted
  start := Drafted.start
  step hscoped hroom hsplit h := fun ⟨_, hspelled⟩ => h.step hscoped hroom hsplit hspelled
  accepts _ _ _ _ hrun := phrase_of_run _ hrun
  size_fresh := rfl
  adds := adds_run
  length_rolesOf := length_rolesOf

end Polyglot.TypeScript
