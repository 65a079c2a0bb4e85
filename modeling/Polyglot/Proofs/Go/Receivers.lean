import Polyglot.Proofs.Document.Forest
import Polyglot.Proofs.Go.Drawing

/-! # Receivers

Which receiver variable a statement is spelled with is read off its block, which got its owner from
the block around it when it was opened. However the calls of several methods are interleaved, all
blocks that are nested in the body of a method have the model of that method as their owner. So
their statements are spelled with the receiver variable of the method's header, and since every
binding is checked against the receiver of its block, nothing in the method hides that variable.
-/

namespace Polyglot

open Script Relation

theorem Document.children_scopes (blocks : List Handle) :
    Document.children (Entry.scopes blocks) = blocks := by
  induction blocks with
  | nil => rfl
  | cons first rest ih =>
    cases rest with
    | nil => rfl
    | cons second rest => simp [Entry.scopes, ih]

namespace Style

variable {style : Style} {script : List Order} {handles : Label → Handle} {document : Document}

/-! ### Bodies -/

/-- What a body holds, and to which model it belongs. -/
theorem Drawn.find_body (h : style.Drawn script script handles document) (hscoped : Scoped script)
    (hroom : (style.roles script).length ≤ Handle.count) {label : Label}
    (hlabel : label ∈ opened script) : document.blocks[(handles label).index]? =
      some (style.content script script (.body label)) := by
  rw [h.handles label hlabel]
  exact h.find hscoped hroom (List.append_nil script).symm (body_mem_roles.mpr hlabel)

/-- Different bodies have different handles. -/
theorem Drawn.label_inj (h : style.Drawn script script handles document) (hscoped : Scoped script)
    (hroom : (style.roles script).length ≤ Handle.count) {first second : Label}
    (hfirst : first ∈ opened script) (hsecond : second ∈ opened script)
    (heq : handles first = handles second) : first = second := by
  rw [h.handles first hfirst, h.handles second hsecond] at heq
  exact Role.body.inj (place_inj hscoped hroom (body_mem_roles.mpr hfirst)
    (body_mem_roles.mpr hsecond) heq)

/-- A body holds its statements, each followed by the bodies that it opens. -/
theorem Drawn.contents_body (h : style.Drawn script script handles document)
    (hscoped : Scoped script) (hroom : (style.roles script).length ≤ Handle.count) {label : Label}
    (hlabel : label ∈ opened script) : document.contents (handles label) =
      (into label script).flatMap fun order =>
        .line (style.headline (order.clause (ownerOf script))) ::
          Entry.scopes (order.opened.map handles) := by
  rw [Document.contents_of_find (h.find_body hscoped hroom hlabel)]
  change (into label script).flatMap (style.entries script) = _
  apply List.flatMap_congr
  intro order horder
  have hplaces : order.opened.map handles =
      order.opened.map fun inner => style.place script (.body inner) := by
    apply List.map_congr_left
    intro inner hinner
    apply h.handles
    exact List.mem_flatMap.mpr ⟨order, (List.mem_filter.mp horder).1, hinner⟩
  rw [entries, hplaces]

/-- What is referred to from a body is a body that one of its statements opened, and belongs to the
same model. -/
theorem Drawn.refersTo_body (h : style.Drawn script script handles document)
    (hscoped : Scoped script) (hroom : (style.roles script).length ≤ Handle.count) {label : Label}
    (hlabel : label ∈ opened script) {inner : Handle}
    (hrefers : document.RefersTo (handles label) inner) :
    ∃ innerLabel ∈ opened script, handles innerLabel = inner ∧
      ownerOf script innerLabel = ownerOf script label := by
  rw [Document.RefersTo, h.contents_body hscoped hroom hlabel] at hrefers
  rw [Document.children, List.filterMap_flatMap, List.mem_flatMap] at hrefers
  obtain ⟨order, horder, hinner⟩ := hrefers
  change inner ∈ Document.children (.line _ :: Entry.scopes _) at hinner
  rw [Document.children_line, Document.children_scopes, List.mem_map] at hinner
  obtain ⟨innerLabel, hopened, rfl⟩ := hinner
  obtain ⟨hmem, hblock⟩ := List.mem_filter.mp horder
  obtain ⟨past, rest, hsplit⟩ := List.append_of_mem hmem
  refine ⟨innerLabel, List.mem_flatMap.mpr ⟨order, hmem, hopened⟩, rfl, ?_⟩
  exact hscoped.ownerOf_inner hsplit (of_decide_eq_true hblock) hopened

/-- So is everything that is nested in a body. -/
theorem Drawn.nested_body (h : style.Drawn script script handles document)
    (hscoped : Scoped script) (hroom : (style.roles script).length ≤ Handle.count) {label : Label}
    (hlabel : label ∈ opened script) {block : Handle}
    (hnested : ReflTransGen document.RefersTo (handles label) block) :
    ∃ inner ∈ opened script, handles inner = block ∧
      ownerOf script inner = ownerOf script label := by
  induction hnested with
  | refl => exact ⟨label, hlabel, rfl, rfl⟩
  | tail _ hrefers ih =>
    obtain ⟨outer, houter, rfl, howner⟩ := ih
    obtain ⟨inner, hinner, heq, hsame⟩ := h.refersTo_body hscoped hroom houter hrefers
    exact ⟨inner, hinner, heq, hsame.trans howner⟩

/-! ### The top level -/

theorem infix_intercalate_of_mem {α : Type} (separator : List α) {item : List α}
    {items : List (List α)} (h : item ∈ items) : item <:+: separator.intercalate items := by
  induction items with
  | nil => simp at h
  | cons first rest ih =>
    cases rest with
    | nil =>
      obtain rfl := List.mem_singleton.mp h
      simp [List.intercalate]
    | cons second rest =>
      have hsplit : separator.intercalate (first :: second :: rest) =
          first ++ (separator ++ separator.intercalate (second :: rest)) := by
        simp [List.intercalate]
      rw [hsplit]
      rcases List.mem_cons.mp h with rfl | h
      · exact (List.prefix_append _ _).isInfix
      · exact ((ih h).trans (List.suffix_append _ _).isInfix).trans
          (List.suffix_append _ _).isInfix

/-- What a declaration shows stands in one piece at the top level. -/
theorem Drawn.item_infix (h : style.Drawn script script handles document) (hscoped : Scoped script)
    (hroom : (style.roles script).length ≤ Handle.count) {past rest : List Order} {order : Order}
    (hsplit : script = past ++ order :: rest) {item : List Entry}
    (hitem : style.item (fun label => style.place script (.body label))
      (style.place script (.own past.length)) order = some item) :
    item <:+: document.contents .root := by
  rw [Document.contents_of_find (h.find_root hscoped hroom (List.append_nil script).symm)]
  apply infix_intercalate_of_mem
  rw [items, List.mem_flatMap]
  refine ⟨(order, past.length), ?_, by simpa using hitem⟩
  rw [List.mem_zipIdx_iff_getElem?, hsplit]
  simp

end Style

namespace Go

/-! ### Bindings -/

theorem checkBindings_eq_ok_iff {receiver : String} {names : List String} :
    checkBindings receiver names = .ok () ↔ ∀ name ∈ names, name ≠ receiver := by
  induction names with
  | nil => simp [checkBindings, pure, Except.pure]
  | cons name rest ih =>
    rw [checkBindings, Step.outcome_bind_eq_ok_iff]
    by_cases hname : name = receiver
    · simp [checkBinding, hname, throw, throwThe, MonadExceptOf.throw]
    · simp [checkBinding, hname, ih, pure, Except.pure]

/-- The line of a statement, spelled with the given receiver variable. -/
def lineText (receiver : Option String) : Order → Step Imports String
  | .act _ action => actionText receiver action
  | .enter _ scope _ => scopeHeader receiver scope
  | .branch _ condition _ _ => conditionHeader receiver condition
  | _ => return ""

/-- The names that a statement binds. -/
def namesOf : Order → List String
  | .act _ action => boundNames action
  | .enter _ scope _ => scopeNames scope
  | _ => []

/-- A statement that is accepted is spelled with the receiver variable of its model, and binds no
such name. -/
theorem line_of_phrase {owners : Label → String} {order : Order} {label : Label}
    (hblock : order.block? = some label) {spelled : String × List String} {noted : Imports}
    (h : phrase (order.clause owners) {} = .ok spelled noted) :
    lineText (some (receiverName (owners label))) order {} =
        .ok (headline (order.clause owners)) noted ∧
      ∀ name ∈ namesOf order, name ≠ receiverName (owners label) := by
  rw [headline_of_phrase h]
  cases order with
  | act outer action =>
    obtain rfl : outer = label := by simpa [Order.block?] using hblock
    obtain ⟨_, hcheck, hline⟩ := Step.lift_bind_eq_ok_iff.mp h
    exact ⟨spelled_of_line hline, checkBindings_eq_ok_iff.mp hcheck⟩
  | enter outer scope body =>
    obtain rfl : outer = label := by simpa [Order.block?] using hblock
    obtain ⟨_, hcheck, hline⟩ := Step.lift_bind_eq_ok_iff.mp h
    exact ⟨spelled_of_line hline, checkBindings_eq_ok_iff.mp hcheck⟩
  | branch outer condition thenBody elseBody =>
    obtain rfl : outer = label := by simpa [Order.block?] using hblock
    exact ⟨spelled_of_line h, by simp [namesOf]⟩
  | _ => simp [Order.block?] at hblock

theorem header_of_phrase {model name : String} {params : List Field} {returns : Option Ty}
    {spelled : String × List String} {noted : Imports}
    (h : phrase (.method model name params returns) {} = .ok spelled noted) :
    (∃ signature, signatureText params returns = .ok signature ∧
      headline (.method model name params returns) = "func (" ++ receiverName model ++ " *" ++
        model ++ ") " ++ name ++ signature ++ " \x7b") ∧
      ∀ param ∈ params, param.name ≠ receiverName model := by
  have hheadline := headline_of_phrase h
  obtain ⟨signature, hsignature, h⟩ := Step.lift_bind_eq_ok_iff.mp h
  obtain ⟨_, hcheck, hdone⟩ := Step.lift_bind_eq_ok_iff.mp h
  cases hdone
  refine ⟨⟨signature, hsignature, hheadline⟩, ?_⟩
  intro param hparam
  exact checkBindings_eq_ok_iff.mp hcheck param.name (List.mem_map_of_mem hparam)

/-- The receiver variable of a method is the one in its header throughout, and stays visible: in
every block that is nested in the body, statements are spelled with it, and neither a parameter nor
a local has its name. -/
theorem receiver_fixed {package : String} {script : List Order} {handles : Label → Handle}
    {file : File} (hscoped : Scoped script)
    (hrun : run noHandles script ({ package } : File) = .ok handles file)
    (hroom : file.document.blocks.size ≤ Handle.count) {model name : String} {params : List Field}
    {returns : Option Ty} {body : Label}
    (hmethod : .method model name params returns body ∈ script) :
    (∃ signature, signatureText params returns = .ok signature ∧
      [.line ("func (" ++ receiverName model ++ " *" ++ model ++ ") " ++ name ++ signature ++
        " \x7b"), .block (handles body), .line "\x7d"] <:+: file.document.contents .root) ∧
    (∀ param ∈ params, param.name ≠ receiverName model) ∧
    ∀ block, ReflTransGen file.document.RefersTo (handles body) block →
      receiverOf file.document block = .ok (receiverName model) ∧
      (∃ label ∈ opened script, handles label = block) ∧
      ∀ label ∈ opened script, handles label = block →
        (∃ text : Order → String,
          (∀ order ∈ into label script,
            ∃ noted, lineText (some (receiverName model)) order {} = .ok (text order) noted) ∧
          file.document.contents block = (into label script).flatMap fun order =>
            .line (text order) :: Entry.scopes (order.opened.map handles)) ∧
        (∀ name value, .act label (.declare name value) ∈ script → name ≠ receiverName model) ∧
        ∀ array index value inner, .enter label (.forEach array index value) inner ∈ script →
          (index ≠ "" → index ≠ receiverName model) ∧ (value ≠ "" → value ≠ receiverName model) := by
  have hroles : (style.roles script).length ≤ Handle.count := by
    rw [← (drafting package).size_of_run hrun]
    exact hroom
  obtain ⟨hdrafted, haccepts⟩ := (drafting package).holds_of_run hscoped hroles hrun
  have hdrawn : style.Drawn script script handles file.document := hdrafted.drawn
  obtain ⟨past, rest, hsplit⟩ := List.append_of_mem hmethod
  have hbody : body ∈ opened script :=
    List.mem_flatMap.mpr ⟨_, hmethod, List.mem_singleton_self body⟩
  have howner : ownerOf script body = model := hscoped.ownerOf_method hsplit
  obtain ⟨_, _, hheader⟩ := haccepts _ hmethod
  obtain ⟨⟨signature, hsignature, hheadline⟩, hparams⟩ := header_of_phrase hheader
  refine ⟨⟨signature, hsignature, ?_⟩, hparams, ?_⟩
  · rw [← hheadline, hdrawn.handles body hbody]
    exact hdrawn.item_infix hscoped hroles hsplit rfl
  · intro block hnested
    obtain ⟨label, hlabel, rfl, hsame⟩ := hdrawn.nested_body hscoped hroles hbody hnested
    rw [howner] at hsame
    refine ⟨?_, ⟨label, hlabel, rfl⟩, ?_⟩
    · rw [← hsame]
      exact receiverOf_of_find (hdrawn.find_body hscoped hroles hlabel) rfl
    · intro other hother heq
      obtain rfl := hdrawn.label_inj hscoped hroles hother hlabel heq
      have hline : ∀ order ∈ script, order.block? = some other →
          (∃ noted, lineText (some (receiverName model)) order {} =
            .ok (headline (order.clause (ownerOf script))) noted) ∧
          ∀ name ∈ namesOf order, name ≠ receiverName model := by
        intro order horder hblock
        obtain ⟨_, noted, hspelled⟩ := haccepts order horder
        obtain ⟨htext, hnames⟩ := line_of_phrase hblock hspelled
        rw [hsame] at htext hnames
        exact ⟨⟨noted, htext⟩, hnames⟩
      refine ⟨⟨fun order => headline (order.clause (ownerOf script)), ?_, ?_⟩, ?_, ?_⟩
      · intro order horder
        obtain ⟨hmem, hblock⟩ := List.mem_filter.mp horder
        exact (hline order hmem (of_decide_eq_true hblock)).1
      · exact hdrawn.contents_body hscoped hroles hother
      · intro name value hmem
        exact (hline _ hmem rfl).2 name (List.mem_singleton_self name)
      · intro array index value inner hmem
        have hnames := (hline _ hmem rfl).2
        constructor
        · intro hused
          exact hnames index (by simp [namesOf, scopeNames, usedBinding?, hused])
        · intro hused
          exact hnames value (by simp [namesOf, scopeNames, usedBinding?, hused])

/-- Two methods of different models, written by turns. Each has a local with the name of the other
one's receiver. -/
def entangled : List Order :=
  [.model "Till" [⟨"coins", .array (.primitive .int)⟩], .model "Book" [],
    .method "Till" "sum" [⟨"b", .primitive .int⟩] none 1,
    .method "Book" "read" [] none 2,
    .enter 1 (.forEach (.ownFieldNamed "coins") "i" "") 3,
    .act 2 (.declare "t" (.ownFieldNamed "page")),
    .branch 3 (.bool true) 4 5,
    .act 5 (.assign (.ownFieldNamed "total") (.binding "b"))]

theorem receiver_fixed_entangled : Scoped entangled ∧ ∃ handles file,
    run noHandles entangled ({ package := "till" } : File) = .ok handles file ∧
    file.document.blocks.size ≤ Handle.count ∧
    ReflTransGen file.document.RefersTo (handles 1) (handles 5) ∧
    receiverOf file.document (handles 5) = .ok "t" ∧
    file.document.contents (handles 5) = [.line "t.total = b"] ∧
    receiverOf file.document (handles 2) = .ok "b" := by
  have hscoped : Scoped entangled := by decide
  obtain ⟨handles, file, hrun, htest⟩ := Step.exists_of_leaves (by decide +kernel :
    Step.leaves (fun file => decide (file.document.blocks.size ≤ Handle.count))
      (run noHandles entangled ({ package := "till" } : File)) = true)
  have hroom := of_decide_eq_true htest
  obtain ⟨-, -, hTill⟩ := receiver_fixed hscoped hrun hroom
    (by simp [entangled] : .method "Till" "sum" [⟨"b", .primitive .int⟩] none 1 ∈ entangled)
  obtain ⟨-, -, hBook⟩ := receiver_fixed hscoped hrun hroom
    (by simp [entangled] : .method "Book" "read" [] none 2 ∈ entangled)
  -- The statements of a block say which blocks are nested in it.
  have hloop : file.document.RefersTo (handles 1) (handles 3) := by
    obtain ⟨-, -, hbody⟩ := hTill (handles 1) .refl
    obtain ⟨⟨text, -, hcontents⟩, -⟩ := hbody 1 (by decide) rfl
    rw [Document.RefersTo, hcontents]
    simp [into, entangled, Order.block?, Order.opened, Entry.scopes]
  have hchoice : file.document.RefersTo (handles 3) (handles 5) := by
    obtain ⟨-, -, hbody⟩ := hTill (handles 3) (.single hloop)
    obtain ⟨⟨text, -, hcontents⟩, -⟩ := hbody 3 (by decide) rfl
    rw [Document.RefersTo, hcontents]
    simp [into, entangled, Order.block?, Order.opened, Entry.scopes]
  have hnested := (ReflTransGen.single hloop).tail hchoice
  obtain ⟨hreceiver, -, hbody⟩ := hTill (handles 5) hnested
  obtain ⟨⟨text, htext, hcontents⟩, -⟩ := hbody 5 (by decide) rfl
  refine ⟨hscoped, handles, file, hrun, hroom, hnested, hreceiver, ?_, (hBook _ .refl).1⟩
  obtain ⟨noted, hspelled⟩ :=
    htext (.act 5 (.assign (.ownFieldNamed "total") (.binding "b"))) (by decide)
  have hline : "t.total = b" = text _ := (EStateM.Result.ok.inj hspelled).1
  rw [hcontents, hline]
  rfl

end Go

end Polyglot
