import Polyglot.Proofs.Document.Additions
import Polyglot.Proofs.Go.Calls

/-! # Additions to Go files

A call of a Go file that succeeds makes an addition to its document. All blocks that are added for
methods are returned, and all that are added are shown. So the document has tiers throughout a
session.
-/

namespace Polyglot.Go

open Document

variable {document : Document} {file file' : File} {call : Call} {block : Handle} {reply : Reply}
  {α : Type}

/-! ### Statements -/

theorem exists_owner {receiver : String} (h : receiverOf document block = .ok receiver) :
    ∃ owner, document.ownerAt block = some owner := by
  cases hfind : document.blocks[block.index]? with
  | none => simp [receiverOf, ownerOf, blockAt, hfind, bind, Except.bind] at h
  | some content =>
    rw [receiverOf, ownerOf_of_find hfind] at h
    rw [ownerAt, hfind]
    cases howner : content.owner with
    | none =>
      rw [howner] at h
      cases h
    | some owner => exact ⟨owner, howner⟩

/-- A statement is spelled and then written, to a block of a method. -/
theorem exists_of_spell {receiver : String}
    (hreceiver : receiverOf file.document block = .ok receiver) {spell : Step Imports String}
    {draw : String → Step Document α} {a : α}
    (h : (File.onImports spell >>= fun text => File.onDocument (draw text)) file = .ok a file') :
    ∃ owner text, file.document.ownerAt block = some owner ∧
      draw text file.document = .ok a file'.document := by
  obtain ⟨owner, howner⟩ := exists_owner hreceiver
  obtain ⟨text, between, hspell, hdraw⟩ := Step.bind_eq_ok_iff.mp h
  obtain ⟨imports, -, rfl⟩ := Step.focus_eq_ok_iff.mp hspell
  obtain ⟨document, hwritten, rfl⟩ := Step.focus_eq_ok_iff.mp hdraw
  exact ⟨owner, text, howner, hwritten⟩

/-! ### Calls -/

/-- What a call that succeeds leaves: its addition is in the document, and of the new blocks all
that belong to a method are returned. -/
def Grown (before : Document) (reply : Reply) (after : Document) : Prop :=
  ∃ addition : Addition, addition.Suits before ∧ reply = addition.reply before.blocks.size ∧
    addition.hidden before.blocks.size = [] ∧ after = before.add addition

section
variable (hroot : Handle.root.index < file.document.blocks.size)
include hroot

theorem grown_model (hroom : file.document.blocks.size < Handle.count) {name : String}
    {fields : List Field} (h : Target.model name fields file = .ok () file') :
    Grown file.document .done file'.document := by
  have hfind := Array.getElem?_eq_getElem hroot
  obtain ⟨texts, htexts, -⟩ := Step.lift_bind_eq_ok_iff.mp h
  rw [model_of_find hroom hfind htexts] at h
  cases h
  refine ⟨.part file.document.gap ("type " ++ name ++ " struct \x7b") "\x7d" none texts, trivial,
    rfl, rfl, ?_⟩
  rw [add_eq_extend, separator_eq_gap hfind]
  · rfl
  · exact hroot

theorem grown_enumeration (name : String) {values : List String}
    (hroom : values ≠ [] → file.document.blocks.size < Handle.count)
    (h : Target.enumeration name values file = .ok () file') :
    Grown file.document .done file'.document := by
  have hfind := Array.getElem?_eq_getElem hroot
  cases values with
  | nil =>
    rw [enumeration_nil_of_find hfind] at h
    cases h
    refine ⟨.lines (file.document.gap ++ ["type " ++ name ++ " int"]), trivial, rfl, rfl, ?_⟩
    rw [add_eq_extend, separator_eq_gap hfind]
    · simp [Addition.news, Addition.place, Addition.entries]
    · exact hroot
  | cons first rest =>
    rw [enumeration_cons_of_find (hroom (List.cons_ne_nil _ _)) hfind] at h
    cases h
    refine ⟨.part (file.document.gap ++ ["type " ++ name ++ " int", ""]) "const (" ")" none
      (enumLines name (first :: rest)), trivial, rfl, rfl, ?_⟩
    rw [add_eq_extend, separator_eq_gap hfind]
    · simp [Addition.news, Addition.place, Addition.entries]
    · exact hroot

theorem grown_method {owner name : String} {params : List Field} {returns : Option Ty}
    (h : Target.method owner name params returns file = .ok block file') :
    Grown file.document (.opened block) file'.document := by
  have hfind := Array.getElem?_eq_getElem hroot
  obtain ⟨signature, hsignature, hchecked⟩ := Step.lift_bind_eq_ok_iff.mp h
  obtain ⟨_, hcheck, -⟩ := Step.lift_bind_eq_ok_iff.mp hchecked
  rw [method_of_find hfind hsignature hcheck] at h
  cases h
  refine ⟨.part file.document.gap ("func (" ++ receiverName owner ++ " *" ++ owner ++ ") " ++
    name ++ signature ++ " \x7b") "\x7d" (some owner) [], trivial, rfl, rfl, ?_⟩
  rw [add_eq_extend, separator_eq_gap hfind]
  · rfl
  · exact hroot

end

theorem grown_act {action : Action} (h : Target.act block action file = .ok () file') :
    Grown file.document .done file'.document := by
  obtain ⟨receiver, hreceiver, h⟩ := Step.lift_bind_eq_ok_iff.mp h
  obtain ⟨_, -, h⟩ := Step.lift_bind_eq_ok_iff.mp h
  obtain ⟨owner, text, howner, hadd⟩ := exists_of_spell hreceiver h
  have howned := Option.isSome_of_eq_some howner
  rw [addLine_eq_add howned] at hadd
  injection hadd with _ hdocument
  exact ⟨.statement block text, howned, rfl, rfl, hdocument.symm⟩

theorem grown_enter {scope : Scope} {inner : Handle}
    (h : Target.enter block scope file = .ok inner file') :
    Grown file.document (.opened inner) file'.document := by
  obtain ⟨receiver, hreceiver, h⟩ := Step.lift_bind_eq_ok_iff.mp h
  obtain ⟨_, -, h⟩ := Step.lift_bind_eq_ok_iff.mp h
  obtain ⟨owner, header, howner, hopen⟩ := exists_of_spell hreceiver h
  rw [openScope_eq_add howner] at hopen
  injection hopen with hinner hdocument
  subst hinner
  exact ⟨.scope block owner header "\x7d", howner, rfl, rfl, hdocument.symm⟩

theorem grown_branch {condition : Value} {inner : Handle × Handle}
    (h : Target.branch block condition file = .ok inner file') :
    Grown file.document (.branched inner.1 inner.2) file'.document := by
  obtain ⟨receiver, hreceiver, h⟩ := Step.lift_bind_eq_ok_iff.mp h
  obtain ⟨owner, header, howner, hopen⟩ := exists_of_spell hreceiver h
  rw [openScopes_eq_add howner] at hopen
  injection hopen with hinner hdocument
  subst hinner
  exact ⟨.scopes block owner header "\x7d else \x7b" "\x7d", howner, rfl, rfl, hdocument.symm⟩

/-- A call that succeeds makes an addition. -/
theorem grown_of_run (hroot : Handle.root.index < file.document.blocks.size)
    (hrun : call.run file = .ok reply file') (hroom : file'.document.blocks.size ≤ Handle.count) :
    Grown file.document reply file'.document := by
  rw [Call.measure_of_run (fun handles => adds_run handles call.order 0) hrun] at hroom
  cases call with
  | model name fields =>
    obtain ⟨_, _, hcall, ⟨⟩⟩ := Step.bind_eq_ok_iff.mp hrun
    exact grown_model hroot hroom hcall
  | enumeration name values =>
    obtain ⟨_, _, hcall, ⟨⟩⟩ := Step.bind_eq_ok_iff.mp hrun
    apply grown_enumeration hroot name _ hcall
    intro hne
    cases values with
    | nil => exact absurd rfl hne
    | cons first rest => exact hroom
  | method owner name params returns =>
    obtain ⟨_, _, hcall, ⟨⟩⟩ := Step.bind_eq_ok_iff.mp hrun
    exact grown_method hroot hcall
  | act block action =>
    obtain ⟨_, _, hcall, ⟨⟩⟩ := Step.bind_eq_ok_iff.mp hrun
    exact grown_act hcall
  | enter block scope =>
    obtain ⟨_, _, hcall, ⟨⟩⟩ := Step.bind_eq_ok_iff.mp hrun
    exact grown_enter hcall
  | branch block condition =>
    obtain ⟨_, _, hcall, ⟨⟩⟩ := Step.bind_eq_ok_iff.mp hrun
    exact grown_branch hcall

/-! ### Sessions -/

/-- What holds at the beginning and is kept by every addition, every refusal and every rendering
holds throughout a session, as long as there are handles for all blocks. -/
theorem tiered_induction {P : Transcript → Document → Prop} (hstart : P [] {})
    (hadd : ∀ past call addition document, Tiered document → P past document →
      addition.Suits document → addition.hidden document.blocks.size = [] →
      document.blocks.size + addition.news.length ≤ Handle.count →
      P (past ++ [(.call call, .ok (.reply (addition.reply document.blocks.size)))])
        (document.add addition))
    (hrefused : ∀ past call fault document, P past document →
      P (past ++ [(.call call, .error fault)]) document)
    (hrender : ∀ past document (outcome : Except Fault String), P past document →
      P (past ++ [(.render, outcome.map .text)]) document)
    (package : String) (requests : List Request)
    (hroom : (Request.session File.render requests { package }).document.blocks.size ≤
      Handle.count) :
    (Request.session File.render requests { package }).document.Tiered ∧
      P (Request.transcript File.render requests { package })
        (Request.session File.render requests { package }).document := by
  refine (Request.session_induction (P := fun past (file : File) =>
    Handle.root.index < file.document.blocks.size ∧
      (file.document.blocks.size ≤ Handle.count →
        file.document.Tiered ∧ P past file.document)) ?_ ?_ ?_ ?_ requests).2 hroom
  · exact ⟨Nat.zero_lt_one, fun _ => ⟨.start, hstart⟩⟩
  · rintro past call reply file file' ⟨hroot, hfile⟩ hrun
    have hsize := size_le_of_run hroot call
    rw [hrun] at hsize
    refine ⟨Nat.lt_of_lt_of_le hroot hsize, ?_⟩
    intro hroom
    obtain ⟨htiered, hpast⟩ := hfile (Nat.le_trans hsize hroom)
    obtain ⟨addition, hsuits, rfl, hhidden, hdocument⟩ := grown_of_run hroot hrun hroom
    rw [hdocument, size_add] at hroom
    rw [hdocument]
    exact ⟨htiered.add hsuits hroom,
      hadd past call addition file.document htiered hpast hsuits hhidden hroom⟩
  · rintro past call fault file file' ⟨hroot, hfile⟩ hrun
    have hkept := clean_run hroot call
    rw [hrun] at hkept
    obtain ⟨noted, rfl⟩ := hkept
    refine ⟨hroot, ?_⟩
    intro hroom
    obtain ⟨htiered, hpast⟩ := hfile hroom
    exact ⟨htiered, hrefused past call fault file.document hpast⟩
  · rintro past file ⟨hroot, hfile⟩
    rw [state_render]
    refine ⟨hroot, ?_⟩
    intro hroom
    obtain ⟨htiered, hpast⟩ := hfile hroom
    exact ⟨htiered, hrender past file.document _ hpast⟩

/-- Documents have tiers throughout a session. -/
theorem tiered_of_session (package : String) (requests : List Request)
    (hroom : (Request.session File.render requests { package }).document.blocks.size ≤
      Handle.count) : (Request.session File.render requests { package }).document.Tiered :=
  (tiered_induction (P := fun _ _ => True) trivial (fun _ _ _ _ _ _ _ _ _ => trivial)
    (fun _ _ _ _ _ => trivial) (fun _ _ _ _ => trivial) package requests hroom).1

end Polyglot.Go
