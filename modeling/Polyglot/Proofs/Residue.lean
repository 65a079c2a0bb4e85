import Polyglot.Proofs.Go.Calls
import Polyglot.Proofs.TestFile.Testify

/-! # What refused calls leave behind in Go

Packages are noted while a text is spelled, and they stay noted if the spelling fails later on. So
a call that a Go file refuses can leave an import behind that nothing refers to. That is all that
it leaves: the text of the file is as it would have been without the call exactly if everything
noted by then is noted anyway.
-/

namespace Polyglot

namespace Go

/-- A Go file with further packages has the same text exactly if they were noted anyway, or if it
has no text. -/
theorem result_render_importing_iff (noted : Imports) (file : File) :
    Step.result (File.render (file.importing noted)) = Step.result (File.render file) ↔
      (∃ fault, Step.result (File.render file) = .error fault) ∨
        file.imports.union noted = file.imports := by
  -- Whether a method has no model does not depend on the packages.
  have hsame : (file.importing noted).firstStray? = file.firstStray? := rfl
  cases hstray : file.firstStray? with
  | some stray =>
    rw [render_of_stray hstray, render_of_stray (hsame.trans hstray)]
    constructor
    · intro _
      exact .inl ⟨_, rfl⟩
    · intro _
      rfl
  | none =>
    rw [render_of_no_stray hstray, render_of_no_stray (hsame.trans hstray), Step.result_ofExcept,
      Step.result_ofExcept]
    exact renderFile_union_eq_iff rfl

/-- However a session goes on after a refused call, the file is rendered as it would have been
without it exactly if every package noted by then is noted anyway, or if it cannot be rendered. -/
theorem render_eq_iff_of_rejected (package : String) (before after : List Request) {call : Call}
    {fault : Fault} {file file' : File}
    (hfile : file = Request.session File.render before { package })
    (h : call.run file = .error fault file') :
    Step.result (File.render (Request.session File.render after file')) =
        Step.result (File.render (Request.session File.render after file)) ↔
      (∃ fault', Step.result (File.render (Request.session File.render after file)) =
        .error fault') ∨
      ∀ noted, file'.imports.contains noted = true →
        (Request.session File.render after file).imports.contains noted = true := by
  have hclean := clean_run (hfile ▸ pos_of_session package before) call
  rw [h] at hclean
  obtain ⟨noted, rfl⟩ := hclean
  -- What was noted before is noted for good.
  have hkept := attempt_importing file.imports after file
  have hself : file.importing file.imports = file := by
    rw [File.importing, Imports.union_self]
  rw [hself] at hkept
  have hunion : (Request.session File.render after file).imports.union file.imports =
      (Request.session File.render after file).imports :=
    (congrArg File.imports hkept).symm
  rw [attempt_importing, result_render_importing_iff, Imports.union_eq_left_iff_union hunion]
  rfl

end Go

/-- A call that a Go file refuses, and a procedure that a Testify file refuses, make no difference
to the text of the file, now or however the session goes on, exactly if every package that is noted
after it would be noted by then without it. -/
theorem residue_of_rejected (package : String) :
    (∀ (before after : List Request) (call : Call) (fault : Fault)
      (file file' : Go.File), file = Request.session Go.File.render before { package } →
      call.run file = .error fault file' →
      (Step.result (Go.File.render (Request.session Go.File.render after file')) =
          Step.result (Go.File.render (Request.session Go.File.render after file)) ↔
        (∃ fault', Step.result (Go.File.render (Request.session Go.File.render after file)) =
          .error fault') ∨
        ∀ noted, file'.imports.contains noted = true →
          (Request.session Go.File.render after file).imports.contains noted = true)) ∧
    ∀ (before after : List Procedure) (procedure : Procedure) (fault : Fault)
      (file file' : Testify.File), file = Procedure.session before { package } →
      TestTarget.procedure procedure file = .error fault file' →
      (Procedure.session after file').document.blocks.size ≤ Handle.count →
      ((Procedure.session after file').render = (Procedure.session after file).render ↔
        ∀ noted, file'.imports.contains noted = true →
          (Procedure.session after file).imports.contains noted = true) := by
  constructor
  · intro before after call fault file file' hfile h
    exact Go.render_eq_iff_of_rejected package before after hfile h
  · intro before after procedure fault file file' hfile h hroom
    exact Testify.render_eq_iff_of_rejected package before after hfile h hroom

/-- A session that declares a model and a method of it. -/
def tillRequests : List Request :=
  [.call (.model "Till" []), .call (.method "Till" "count" [] none)]

/-- A statement whose key needs a package and whose value cannot be spelled. -/
def halfSpoken : Call :=
  .act ⟨2⟩ (.mapPut (.binding "m") (.intToText (.int 1)) (.array (.pointer (.primitive .bool)) []))

/-- A test whose first input needs a package and whose second one cannot be spelled. -/
def halfSpokenTest : Procedure where
  name := "opened"
  method := "open"
  inputs := [.float 0x7ff8000000000000, .array (.pointer (.primitive .bool)) []]
  output := none
  sideEffects := []

/-- A statement that needs the package of the refused one. -/
def spoken : Request :=
  .call (.act ⟨2⟩ (.declare "n" (.intToText (.int 2))))

/-- A test that needs the package of the refused one. -/
def spokenTest : Procedure where
  name := "closed"
  method := "close"
  inputs := [.float 0x7ff0000000000000]
  output := none
  sideEffects := []

theorem residue_of_rejected_halfSpoken :
    (∃ fault file', halfSpoken.run (Request.session Go.File.render tillRequests
        { package := "till" }) = .error fault file' ∧
      Step.result (Go.File.render file') ≠
        Step.result (Go.File.render (Request.session Go.File.render tillRequests
          { package := "till" })) ∧
      Step.result (Go.File.render (Request.session Go.File.render [spoken] file')) =
        Step.result (Go.File.render (Request.session Go.File.render [spoken]
          (Request.session Go.File.render tillRequests { package := "till" })))) ∧
    ∃ fault file', TestTarget.procedure halfSpokenTest ({ package := "till" } : Testify.File) =
        .error fault file' ∧
      file'.render ≠ ({ package := "till" } : Testify.File).render ∧
      (Procedure.session [spokenTest] file').render =
        (Procedure.session [spokenTest] ({ package := "till" } : Testify.File)).render := by
  obtain ⟨hgo, htestify⟩ := residue_of_rejected "till"
  constructor
  · obtain ⟨fault, file', hstop, htest⟩ := Step.exists_of_stops (by decide +kernel :
      Step.stops (fun file' => file'.imports = ({} : Imports).insert .strconv) (halfSpoken.run
        (Request.session Go.File.render tillRequests { package := "till" })) = true)
    have himports := of_decide_eq_true htest
    refine ⟨fault, file', hstop, ?_, ?_⟩
    · intro hsame
      have hrender : Step.result (Go.File.render (Request.session Go.File.render tillRequests
          { package := "till" })) = .ok _ := rfl
      rcases (hgo tillRequests [] _ fault _ file' rfl hstop).mp hsame with
        ⟨fault', hfault⟩ | hnoted
      · exact absurd (hrender.symm.trans hfault) (by simp)
      · have hstrconv := hnoted .strconv (by rw [himports]; rfl)
        exact absurd hstrconv (by decide +kernel)
    · apply (hgo tillRequests [spoken] _ fault _ file' rfl hstop).mpr
      right
      intro noted hnoted
      rw [himports] at hnoted
      have hlater : (Request.session Go.File.render [spoken] (Request.session Go.File.render
          tillRequests { package := "till" })).imports = ({} : Imports).insert .strconv := by
        decide +kernel
      rwa [hlater]
  · obtain ⟨fault, file', hstop, htest⟩ := Step.exists_of_stops (by decide +kernel :
      Step.stops (fun file' =>
          file'.imports = ({ package := "till" } : Testify.File).imports.insert .math ∧
          (Procedure.session [spokenTest] file').document.blocks.size ≤ Handle.count ∧
          file'.document.blocks.size ≤ Handle.count)
        (TestTarget.procedure halfSpokenTest ({ package := "till" } : Testify.File)) = true)
    obtain ⟨himports, hlaterRoom, hroom⟩ := of_decide_eq_true htest
    refine ⟨fault, file', hstop, ?_, ?_⟩
    · intro hsame
      have hnoted := (htestify [] [] _ fault _ file' rfl hstop hroom).mp hsame
      have hmath := hnoted .math (by rw [himports]; rfl)
      exact absurd hmath (by decide +kernel)
    · apply (htestify [] [spokenTest] _ fault _ file' rfl hstop hlaterRoom).mpr
      intro noted hnoted
      rw [himports] at hnoted
      have hlater : (Procedure.session [spokenTest]
          ({ package := "till" } : Testify.File)).imports =
            ({ package := "till" } : Testify.File).imports.insert .math := by decide +kernel
      exact hlater ▸ hnoted

/-- The import of a refused call shows although nothing refers to the package. -/
theorem residue_unused_import :
    (∃ fault file', halfSpoken.run (Request.session Go.File.render tillRequests
        { package := "till" }) = .error fault file' ∧
      Step.result (Go.File.render (Request.session Go.File.render tillRequests
        { package := "till" })) =
        .ok "package till\n\ntype Till struct \x7b\n\x7d\n\nfunc (t *Till) count() \x7b\n\x7d\n" ∧
      Step.result (Go.File.render file') =
        .ok ("package till\n\nimport \"strconv\"\n\ntype Till struct \x7b\n\x7d\n\n" ++
          "func (t *Till) count() \x7b\n\x7d\n")) ∧
    ∃ fault file', TestTarget.procedure halfSpokenTest ({ package := "till" } : Testify.File) =
        .error fault file' ∧
      ({ package := "till" } : Testify.File).render =
        .ok ("package till\n\nimport (\n\t\"github.com/stretchr/testify/require\"\n" ++
          "\t\"testing\"\n)\n") ∧
      file'.render =
        .ok ("package till\n\nimport (\n\t\"github.com/stretchr/testify/require\"\n" ++
          "\t\"math\"\n\t\"testing\"\n)\n") := by
  refine ⟨⟨_, _, rfl, ?_, ?_⟩, _, _, rfl, ?_, ?_⟩ <;> decide +kernel

end Polyglot
