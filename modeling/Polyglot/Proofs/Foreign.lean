import Polyglot.Proofs.Go.Additions
import Polyglot.Proofs.TypeScript.Integrity

/-! # Foreign handles

Which blocks accept statements: those that belong to a method. In a Go file these are the blocks
whose handles were returned, so that no other handle can be used. In a TypeScript file there is one
more for each method, around its body; its handle is never returned, and still is as good as any.
-/

namespace Polyglot

open Document

namespace Transcript

/-- The blocks around the bodies of methods, each of them one before the body. -/
def wrappers (transcript : Transcript) : List Handle :=
  transcript.flatMap fun
    | (.call (.method _ _ _ _), .ok (.reply (.opened body))) => [.next (body.index - 1)]
    | _ => []

theorem wrappers_refused (past : Transcript) (made : Call) (fault : Fault) :
    wrappers (past ++ [(.call made, .error fault)]) = wrappers past := by
  cases made <;> simp [wrappers]

theorem wrappers_render (past : Transcript) (outcome : Except Fault String) :
    wrappers (past ++ [(.render, outcome.map .text)]) = wrappers past := by
  simp [wrappers]

end Transcript

variable {document : Document} {addition : Addition} {call : Call} {block handle : Handle}

/-! ### TypeScript -/

namespace TypeScript

variable {file : File}

/-- The blocks that a call adds for a method without returning them are those around bodies. -/
theorem Forms.wrappers (h : Forms document call addition)
    (hroom : document.blocks.size + addition.news.length ≤ Handle.count) (past : Transcript) :
    Transcript.wrappers
        (past ++ [(.call call, .ok (.reply (addition.reply document.blocks.size)))]) =
      past.wrappers ++ addition.hidden document.blocks.size := by
  cases h with
  | method owner name params returns header footer =>
    have hbody : (Handle.next (document.blocks.size + 1)).index = document.blocks.size + 1 :=
      Handle.index_next hroom
    simp [Transcript.wrappers, Addition.reply, Addition.hidden, hbody]
  | _ => simp [Transcript.wrappers, Addition.hidden]

/-- A block belongs to a method if its handle was returned, or if it is around a body. -/
theorem owned_of_session (requests : List Request)
    (hroom : (Request.session File.render requests {}).document.blocks.size ≤ Handle.count)
    (handle : Handle) :
    ((Request.session File.render requests {}).document.ownerAt handle).isSome ↔
      handle ∈ (Request.transcript File.render requests {}).issued ∨
        handle ∈ (Request.transcript File.render requests {}).wrappers := by
  refine (sound_induction (P := fun past file => (file.document.ownerAt handle).isSome ↔
    handle ∈ past.issued ∨ handle ∈ past.wrappers) ?_ ?_ ?_ ?_ requests hroom).2
  · simp [ownerAt_start, Transcript.wrappers]
  · intro past call addition file hsound hpast haddition hfits
    have hforms := forms_of_addition haddition
    rw [File.grow, owned_add_iff hfits, hpast, Transcript.issued_reply,
      hforms.wrappers hfits, List.mem_append, List.mem_append]
    tauto
  · intro past call fault file hsound hpast
    rw [Transcript.issued_refused, Transcript.wrappers_refused]
    exact hpast
  · intro past file outcome hsound hpast
    rw [Transcript.issued_render, Transcript.wrappers_render, File.settled, ownerAt_moveEach]
    exact ⟨hpast, hpast⟩

/-- A call to a block that belongs to no method is refused. -/
theorem run_of_free (hblock : call.block? = some block)
    (hfree : ¬ (file.document.ownerAt block).isSome) :
    ∃ fault, call.run file = .error fault file := by
  cases haddition : additionOf file.document call with
  | error fault => exact ⟨fault, run_of_refused haddition⟩
  | ok addition =>
    cases forms_of_addition haddition with
    | act howner | enter howner | branch howner =>
      cases hblock
      exact absurd (Option.isSome_of_eq_some howner) hfree
    | _ => cases hblock

/-- A block that belongs to a method accepts statements. -/
theorem run_of_owned (howned : (file.document.ownerAt block).isSome)
    (hroot : Handle.root.index < file.document.blocks.size)
    (hroom : file.document.blocks.size ≤ Handle.count) :
    ∃ file', (Call.act block (.giveBack .null)).run file = .ok .done file' := by
  obtain ⟨owner, howner⟩ := Option.isSome_iff_exists.mp howned
  have haddition : additionOf file.document (.act block (.giveBack .null)) =
      .ok (.statement block "return null;") := by
    simp only [additionOf, ownerIn_eq_ok_iff.mpr howner]
    rfl
  exact ⟨_, run_of_addition hroot haddition hroom⟩

end TypeScript

/-! ### Go -/

namespace Go

variable {file : File}

/-- The blocks of methods are those whose handles were returned. -/
theorem owned_of_session (package : String) (requests : List Request)
    (hroom : (Request.session File.render requests { package }).document.blocks.size ≤
      Handle.count) (handle : Handle) :
    ((Request.session File.render requests { package }).document.ownerAt handle).isSome ↔
      handle ∈ (Request.transcript File.render requests { package }).issued := by
  refine (tiered_induction (P := fun past document => (document.ownerAt handle).isSome ↔
    handle ∈ past.issued) ?_ ?_ ?_ ?_ package requests hroom).2
  · simp [ownerAt_start]
  · intro past call addition document _ hpast _ hhidden hfits
    rw [owned_add_iff hfits, hpast, hhidden, Transcript.issued_reply, List.mem_append]
    simp
  · intro past call fault document hpast
    rw [Transcript.issued_refused]
    exact hpast
  · intro past document outcome hpast
    rw [Transcript.issued_render]
    exact hpast

/-- A call to a block that belongs to no method is refused before anything is noted. -/
theorem run_of_free (hblock : call.block? = some block)
    (hfree : ¬ (file.document.ownerAt block).isSome) :
    ∃ fault, call.run file = .error fault file := by
  cases hreceiver : receiverOf file.document block with
  | ok receiver =>
    obtain ⟨owner, howner⟩ := exists_owner hreceiver
    exact absurd (Option.isSome_of_eq_some howner) hfree
  | error fault =>
    refine ⟨fault, ?_⟩
    cases call with
    | act outer action =>
      cases hblock
      have hact : Target.act block action file = .error fault file :=
        Step.lift_bind_of_error hreceiver
      exact Step.bind_of_error hact
    | enter outer scope =>
      cases hblock
      have henter : Target.enter block scope file = .error fault file :=
        Step.lift_bind_of_error hreceiver
      exact Step.bind_of_error henter
    | branch outer condition =>
      cases hblock
      have hbranch : Target.branch block condition file = .error fault file :=
        Step.lift_bind_of_error hreceiver
      exact Step.bind_of_error hbranch
    | _ => cases hblock

end Go

/-- A handle that was never returned is refused by every call of a Go file, and the file stays as
it was. A TypeScript file does the same exactly if the handle is not that of a block around the body
of a method. -/
theorem refused_of_foreign (requests : List Request) :
    ((Request.session TypeScript.File.render requests {}).document.blocks.size ≤ Handle.count →
      ∀ block ∉ (Request.transcript TypeScript.File.render requests {}).issued,
        (∀ call : Call, call.block? = some block → ∃ fault,
          call.run (Request.session TypeScript.File.render requests {}) =
            .error fault (Request.session TypeScript.File.render requests {})) ↔
        block ∉ (Request.transcript TypeScript.File.render requests {}).wrappers) ∧
    ∀ package, (Request.session Go.File.render requests { package }).document.blocks.size ≤
        Handle.count →
      ∀ block ∉ (Request.transcript Go.File.render requests { package }).issued,
        ∀ call : Call, call.block? = some block → ∃ fault,
          call.run (Request.session Go.File.render requests { package }) =
            .error fault (Request.session Go.File.render requests { package }) := by
  constructor
  · intro hroom block hforeign
    have howned := TypeScript.owned_of_session requests hroom block
    constructor
    · intro hrefused hwrapper
      have hroot := (TypeScript.sound_of_session requests hroom).tiered.nonempty
      obtain ⟨file', hrun⟩ := TypeScript.run_of_owned (howned.mpr (.inr hwrapper)) hroot hroom
      obtain ⟨fault, hstop⟩ := hrefused (.act block (.giveBack .null)) rfl
      rw [hrun] at hstop
      cases hstop
    · intro hwrapper call hblock
      apply TypeScript.run_of_free hblock
      rw [howned]
      exact not_or.mpr ⟨hforeign, hwrapper⟩
  · intro package hroom block hforeign call hblock
    apply Go.run_of_free hblock
    rwa [Go.owned_of_session package requests hroom block]

/-- A session that declares a method, whose body is returned. -/
def declaredMethod : List Request :=
  [.call (.method "Till" "count" [] none)]

theorem refused_of_foreign_root :
    (∀ call : Call, call.block? = some .root → ∃ fault,
      call.run (Request.session TypeScript.File.render declaredMethod {}) =
        .error fault (Request.session TypeScript.File.render declaredMethod {})) ∧
    ∀ call : Call, call.block? = some .root → ∃ fault,
      call.run (Request.session Go.File.render declaredMethod { package := "till" }) =
        .error fault (Request.session Go.File.render declaredMethod { package := "till" }) := by
  obtain ⟨htypeScript, hgo⟩ := refused_of_foreign declaredMethod
  constructor
  · apply (htypeScript (by decide +kernel) .root (by decide +kernel)).mpr
    decide +kernel
  · exact hgo "till" (by decide +kernel) .root (by decide +kernel)

/-- The handle of the block around the body was not returned, and a statement that it is used for
shows in the text, outside of the method. -/
theorem foreign_accepted :
    (⟨1⟩ : Handle) ∉ (Request.transcript TypeScript.File.render declaredMethod {}).issued ∧
    ∃ file', (Call.act ⟨1⟩ (.giveBack .null)).run
        (Request.session TypeScript.File.render declaredMethod {}) = .ok .done file' ∧
      Step.result (TypeScript.File.render
        (Request.session TypeScript.File.render [.call (.model "Till" [])] file')) =
        .ok "export class Till \x7b\n\tpublic count() \x7b\n\t\x7d\n\treturn null;\n\x7d\n" := by
  refine ⟨by decide +kernel, _, rfl, ?_⟩
  decide +kernel

end Polyglot
