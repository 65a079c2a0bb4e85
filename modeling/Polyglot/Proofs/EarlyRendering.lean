import Polyglot.Proofs.Go.Calls
import Polyglot.Proofs.TypeScript.Integrity

/-! # Rendering early

A file may be rendered while it is still written to. Rendering does not change a Go file at all. It
moves the methods of a TypeScript file that wait for their models, but whatever is added later is
added elsewhere, and the methods that wait by then go to the ends of the same blocks. So nothing
that the file answers later tells whether it was rendered.
-/

namespace Polyglot

namespace Request

/-- The block that a request goes to. -/
def block? : Request → Option Handle
  | call made => made.block?
  | .render => none

/-- The requests that are calls. -/
def calls (requests : List Request) : List Request :=
  requests.filter (· ≠ .render)

@[simp] theorem calls_concat_render (requests : List Request) :
    calls (requests ++ [.render]) = calls requests := by
  simp [calls]

@[simp] theorem calls_concat_call (requests : List Request) (made : Call) :
    calls (requests ++ [.call made]) = calls requests ++ [.call made] := by
  simp [calls]

end Request

namespace Transcript

/-- What was answered to calls. -/
def calls (transcript : Transcript) : Transcript :=
  transcript.filter (·.1 ≠ .render)

@[simp] theorem calls_concat_render (past : Transcript) (outcome : Except Fault Answer) :
    calls (past ++ [(.render, outcome)]) = calls past := by
  simp [calls]

@[simp] theorem calls_concat_call (past : Transcript) (made : Call)
    (outcome : Except Fault Answer) :
    calls (past ++ [(.call made, outcome)]) = calls past ++ [(.call made, outcome)] := by
  simp [calls]

/-- The models that were declared. -/
def declared (transcript : Transcript) : List String :=
  transcript.filterMap fun
    | (.call (.model name _), .ok _) => some name
    | _ => none

theorem declared_refused (past : Transcript) (made : Call) (fault : Fault) :
    declared (past ++ [(.call made, .error fault)]) = declared past := by
  simp [declared]

theorem declared_render (past : Transcript) (outcome : Except Fault Answer) :
    declared (past ++ [(.render, outcome)]) = declared past := by
  simp [declared]

/-- Every call goes to a block whose handle was returned before. -/
def UsesIssued (transcript : Transcript) : Prop :=
  ∀ i < transcript.length, ∀ block ∈ transcript[i]?.bind (·.1.block?),
    block ∈ issued (transcript.take i)

instance (transcript : Transcript) : Decidable transcript.UsesIssued :=
  inferInstanceAs (Decidable (∀ i < _, _))

theorem usesIssued_concat {past : Transcript} {entry : Request × Except Fault Answer} :
    UsesIssued (past ++ [entry]) ↔
      UsesIssued past ∧ ∀ block ∈ entry.1.block?, block ∈ issued past := by
  constructor
  · intro h
    constructor
    · intro i hi
      have hold := h i (by simp; omega)
      rwa [List.getElem?_append_left hi, List.take_append_of_le_length (Nat.le_of_lt hi)] at hold
    · simpa using h past.length (by simp)
  · rintro ⟨hpast, hlast⟩ i hi
    by_cases hold : i < past.length
    · rw [List.getElem?_append_left hold, List.take_append_of_le_length (Nat.le_of_lt hold)]
      exact hpast i hold
    · obtain rfl : i = past.length := by simp at hi; omega
      simpa using hlast

theorem declared_sublist (past : Transcript) (entry : Request × Except Fault Answer) :
    (declared past).Sublist (declared (past ++ [entry])) :=
  (List.sublist_append_left past [entry]).filterMap _

end Transcript

/-- Rendering goes unnoticed: calls are answered as if there were only calls, the text in the end is
the same, and so is the text if the file is rendered again. -/
structure Request.Unnoticed {σ : Type} [Target σ] (render : Step σ String)
    (requests : List Request) (start : σ) : Prop where
  answers : (transcript render requests start).calls = transcript render (calls requests) start
  text : Step.result (render (session render requests start)) =
    Step.result (render (session render (calls requests) start))
  again : Step.result (render (Step.state (render (session render requests start)))) =
    Step.result (render (session render requests start))

/-! ### Go -/

theorem Go.session_calls (requests : List Request) (file : Go.File) :
    Request.session Go.File.render requests file =
        Request.session Go.File.render (Request.calls requests) file ∧
      (Request.transcript Go.File.render requests file).calls =
        Request.transcript Go.File.render (Request.calls requests) file := by
  induction requests using List.reverseRecOn with
  | nil => exact ⟨rfl, rfl⟩
  | append_singleton past request ih =>
    obtain ⟨hsession, htranscript⟩ := ih
    rw [Request.session_concat, Request.transcript_concat]
    cases request with
    | render =>
      rw [Request.state_serve_render, state_render, Request.calls_concat_render,
        Transcript.calls_concat_render]
      exact ⟨hsession, htranscript⟩
    | call made =>
      rw [Request.calls_concat_call, Request.session_concat, Request.transcript_concat,
        Transcript.calls_concat_call, hsession, htranscript]
      exact ⟨rfl, rfl⟩

/-! ### TypeScript -/

namespace TypeScript

open Document

variable {file rendered : File} {early : List Member} {call : Call} {addition : Addition}

/-! What the transcript of a session says about the file. -/

/-- Returned handles are those of blocks of methods, models with a block were declared, and the
blocks in which methods wait were not returned. -/
structure Recorded (past : Transcript) (file : File) : Prop where
  issued : ∀ handle ∈ past.issued, (file.document.ownerAt handle).isSome
  declared : ∀ home ∈ file.members.homes, home.1 ∈ past.declared
  waiting : ∀ member ∈ file.members.waiting, member.block ∉ past.issued

theorem Recorded.grow {past : Transcript} (h : Recorded past file) (hsound : Sound file)
    (hforms : Forms file.document call addition)
    (hroom : file.document.blocks.size + addition.news.length ≤ Handle.count) :
    Recorded (past ++ [(.call call, .ok (.reply (addition.reply file.document.blocks.size)))])
      (file.grow call addition) where
  issued handle hhandle := by
    rw [Transcript.issued_reply] at hhandle
    apply (owned_add_iff hroom).mpr
    rcases List.mem_append.mp hhandle with hold | hnew
    · exact .inl (h.issued handle hold)
    · exact .inr (.inl hnew)
  declared := by
    cases hforms with
    | model name fields header footer body =>
      intro home hhome
      rw [Transcript.declared, List.filterMap_append, List.mem_append]
      rcases List.mem_cons.mp hhome with rfl | hhome
      · exact .inr (List.mem_singleton.mpr rfl)
      · exact .inl (h.declared home hhome)
    | _ =>
      intro home hhome
      rw [Transcript.declared, List.filterMap_append, List.mem_append]
      exact .inl (h.declared home hhome)
  waiting := by
    have hold : ∀ member ∈ file.members.waiting,
        member.block ∉ past.issued ++ (addition.reply file.document.blocks.size).handles := by
      intro member hmember
      rw [List.mem_append, not_or]
      exact ⟨h.waiting member hmember,
        not_mem_reply_of_lt hroom (lt_of_owned (hsound.waiting member hmember))⟩
    rw [Transcript.issued_reply]
    cases hforms with
    | method owner name params returns header footer =>
      intro member hmember
      rcases List.mem_append.mp hmember with hmember | hmember
      · exact hold member hmember
      · rw [List.mem_singleton.mp hmember, List.mem_append, not_or]
        refine ⟨?_, not_mem_reply_of_hidden hroom (List.mem_singleton.mpr rfl)⟩
        intro hissued
        have hlt : (Handle.next file.document.blocks.size).index < file.document.blocks.size :=
          lt_of_owned (h.issued _ hissued)
        rw [Handle.index_next (Nat.lt_of_succ_lt hroom)] at hlt
        exact Nat.lt_irrefl _ hlt
    | _ => exact hold

theorem Recorded.settled {past : Transcript} (h : Recorded past file) :
    Recorded past file.settled where
  issued handle hhandle := by
    rw [File.settled, ownerAt_moveEach]
    exact h.issued handle hhandle
  declared := h.declared
  waiting := by
    rintro member ⟨⟩

/-- Only the handles that were returned and the models that were declared matter. -/
theorem Recorded.congr {past past' : Transcript} (h : Recorded past file)
    (hissued : past'.issued = past.issued) (hdeclared : past'.declared = past.declared) :
    Recorded past' file := by
  refine ⟨?_, ?_, ?_⟩
  · rw [hissued]
    exact h.issued
  · rw [hdeclared]
    exact h.declared
  · rw [hissued]
    exact h.waiting

theorem recorded_of_session (requests : List Request)
    (hroom : (Request.session File.render requests {}).document.blocks.size ≤ Handle.count) :
    Recorded (Request.transcript File.render requests {})
      (Request.session File.render requests {}) := by
  refine (sound_induction ?_ ?_ ?_ ?_ requests hroom).2
  · refine ⟨?_, ?_, ?_⟩ <;> simp
  · intro past call addition file hsound hpast haddition hfits
    exact hpast.grow hsound (forms_of_addition haddition) hfits
  · intro past call fault file _ hpast
    exact hpast.congr (Transcript.issued_refused ..) (Transcript.declared_refused ..)
  · intro past file outcome _ hpast
    have hrender := hpast.congr (Transcript.issued_render past outcome)
      (Transcript.declared_render past _)
    exact ⟨hrender, hrender.settled⟩

/-! ### TypeScript: a file and one that was rendered -/

/-- Some of the methods that wait in the first file are settled in the second one. -/
structure Ahead (early : List Member) (file rendered : File) : Prop where
  waiting : file.members.waiting = early ++ rendered.members.waiting
  homes : rendered.members.homes = file.members.homes
  no_stray : file.members.firstStray? early = none
  document : rendered.document = file.document.moveEach (file.members.moves early)

namespace Ahead

theorem refl (file : File) : Ahead [] file file where
  waiting := rfl
  homes := rfl
  no_stray := rfl
  document := rfl

theorem movable (h : Ahead early file rendered) (hsound : Sound file) {pair : Handle × Handle}
    (hpair : pair ∈ file.members.moves early) :
    pair.1.index < file.document.blocks.size ∧ pair.2.index < file.document.blocks.size ∧
      (file.document.ownerAt pair.1).isSome ∧ file.document.ownerAt pair.2 = none ∧
      pair.2 ≠ .root := by
  apply hsound.movable _ h.no_stray hpair
  intro member hmember
  rw [h.waiting]
  exact List.mem_append_left _ hmember

/-- A block that was returned is none in which a method waited. -/
theorem ne_of_issued (h : Ahead early file rendered) {past : Transcript}
    (hrecorded : Recorded past file) {block : Handle} (hissued : block ∈ past.issued)
    {member : Member} (hmember : member ∈ early) : block ≠ member.block := by
  rintro rfl
  apply hrecorded.waiting member _ hissued
  rw [h.waiting]
  exact List.mem_append_left _ hmember

/-- The models that methods were moved into are declared. -/
theorem ne_of_undeclared (h : Ahead early file rendered) {past : Transcript}
    (hrecorded : Recorded past file) {name : String} (hname : name ∉ past.declared)
    {member : Member} (hmember : member ∈ early) : member.model ≠ name := by
  rintro rfl
  exact hname (hrecorded.declared _ (Members.mem_homes h.no_stray hmember))

theorem size_eq (h : Ahead early file rendered) :
    rendered.document.blocks.size = file.document.blocks.size := by
  rw [h.document, size_moveEach]

theorem ownerAt_eq (h : Ahead early file rendered) (handle : Handle) :
    rendered.document.ownerAt handle = file.document.ownerAt handle := by
  rw [h.document, ownerAt_moveEach]

theorem sound (h : Ahead early file rendered) (hsound : Sound file) : Sound rendered where
  tiered := by
    rw [h.document]
    exact hsound.tiered.moveEach fun _ hpair => h.movable hsound hpair
  homes home hhome := by
    rw [h.homes] at hhome
    rw [h.size_eq, h.ownerAt_eq]
    exact hsound.homes home hhome
  waiting member hmember := by
    rw [h.ownerAt_eq]
    apply hsound.waiting
    rw [h.waiting]
    exact List.mem_append_right _ hmember

/-- A call finds in both files what it looks for. -/
theorem additionOf_eq (h : Ahead early file rendered) (hsound : Sound file) (call : Call) :
    additionOf rendered.document call = additionOf file.document call := by
  apply additionOf_congr
  · rw [gap, gap, h.document, contents_moveEach]
    intro pair hpair
    obtain ⟨-, -, howned, -, hroot⟩ := h.movable hsound hpair
    exact ⟨(hsound.tiered.ne_root_of_owned howned).symm, hroot.symm⟩
  · intro block
    exact ownerOf_congr h.size_eq (h.ownerAt_eq block)

/-- What is added goes to none of the blocks between which methods were moved. -/
theorem apart (h : Ahead early file rendered) (hsound : Sound file)
    (hforms : Forms file.document call addition)
    (hroom : file.document.blocks.size + addition.news.length ≤ Handle.count)
    (hblock : ∀ block ∈ call.block?, ∀ member ∈ early, block ≠ member.block)
    {pair : Handle × Handle} (hpair : pair ∈ file.members.moves early) :
    addition.place file.document.blocks.size ≠ pair.1 ∧
      addition.place file.document.blocks.size ≠ pair.2 := by
  obtain ⟨hsource, htarget, howned, hfree, hroot⟩ := h.movable hsound hpair
  obtain ⟨member, hmember, heq, -⟩ := Members.exists_of_mem_moves h.no_stray hpair
  have howner : ∀ {block : Handle} {owner : String}, file.document.ownerAt block = some owner →
      block ≠ pair.2 := by
    rintro block owner howner rfl
    rw [hfree] at howner
    cases howner
  cases hforms with
  | model | enumeration => exact ⟨(hsound.tiered.ne_root_of_owned howned).symm, hroot.symm⟩
  | method =>
    have hnext : (Handle.next file.document.blocks.size).index = file.document.blocks.size :=
      Handle.index_next (Nat.lt_of_succ_lt hroom)
    rw [Addition.place]
    constructor
    · rintro hplace
      rw [← hplace] at hsource
      omega
    · rintro hplace
      rw [← hplace] at htarget
      omega
  | act hblockOwner | enter hblockOwner | branch hblockOwner =>
    rw [heq]
    exact ⟨hblock _ rfl member hmember, howner hblockOwner⟩

/-- The same is added to both files. -/
theorem grow (h : Ahead early file rendered) (hsound : Sound file)
    (hforms : Forms file.document call addition)
    (hroom : file.document.blocks.size + addition.news.length ≤ Handle.count)
    (hblock : ∀ block ∈ call.block?, ∀ member ∈ early, block ≠ member.block)
    (hmodel : ∀ name fields, call = .model name fields → ∀ member ∈ early, member.model ≠ name) :
    Ahead early (file.grow call addition) (rendered.grow call addition) := by
  -- A model that is declared now is not one that methods were moved into.
  have hhome : ∀ member ∈ early, (file.grow call addition).members.home? member.model =
      file.members.home? member.model := by
    intro member hmember
    cases hforms with
    | model name fields =>
      have hne := beq_false_of_ne (hmodel name fields rfl member hmember)
      simp [File.grow, noted, Call.order, Members.register, Members.home?, List.lookup_cons, hne]
    | _ => rfl
  refine ⟨?_, ?_, ?_, ?_⟩
  · cases hforms with
    | method owner name params returns header footer =>
      simp [File.grow, noted, Call.order, Members.defer, h.waiting, h.size_eq]
    | _ => exact h.waiting
  · cases hforms with
    | model name fields header footer body =>
      simp [File.grow, noted, Call.order, Members.register, h.homes, h.size_eq]
    | _ => exact h.homes
  · rw [Members.firstStray?_congr hhome]
    exact h.no_stray
  · rw [Members.moves_congr hhome, File.grow, File.grow, h.document]
    apply (moveEach_add _ _).symm
    · intro pair hpair
      obtain ⟨hsource, htarget, -⟩ := h.movable hsound hpair
      exact ⟨hsource, htarget⟩
    · intro pair hpair
      exact h.apart hsound hforms hroom hblock hpair

/-- A call is answered by both files in the same way. -/
theorem run (h : Ahead early file rendered) (hsound : Sound file)
    (hblock : ∀ block ∈ call.block?, ∀ member ∈ early, block ≠ member.block)
    (hmodel : ∀ name fields reply file', call = .model name fields →
      call.run file = .ok reply file' → ∀ member ∈ early, member.model ≠ name)
    (hroom : (Step.state (call.run file)).document.blocks.size ≤ Handle.count) :
    Step.result (call.run rendered) = Step.result (call.run file) ∧
      Ahead early (Step.state (call.run file)) (Step.state (call.run rendered)) := by
  have haddition := h.additionOf_eq hsound call
  cases hfile : additionOf file.document call with
  | error fault =>
    rw [run_of_refused hfile, run_of_refused (haddition.trans hfile)]
    exact ⟨rfl, h⟩
  | ok addition =>
    have hforms := forms_of_addition hfile
    obtain ⟨reply, file', hrun⟩ := succeeds_of_addition hsound.tiered.nonempty hfile
    have hfits : file.document.blocks.size + addition.news.length ≤ Handle.count := by
      rw [← hforms.size_of_run hrun]
      rwa [hrun] at hroom
    have hnames : ∀ name fields, call = .model name fields →
        ∀ member ∈ early, member.model ≠ name :=
      fun name fields hcall => hmodel name fields reply file' hcall hrun
    have hrendered := (h.sound hsound).tiered.nonempty
    rw [run_of_addition hsound.tiered.nonempty hfile hfits,
      run_of_addition hrendered (haddition.trans hfile) (by rwa [h.size_eq]), h.size_eq]
    exact ⟨rfl, h.grow hsound hforms hfits hblock hnames⟩

theorem firstStray?_eq (h : Ahead early file rendered) :
    rendered.members.firstStray? rendered.members.waiting =
      file.members.firstStray? file.members.waiting := by
  have hearly := h.no_stray
  rw [Members.firstStray?] at hearly
  rw [h.waiting, Members.firstStray?, Members.firstStray?, List.find?_append, hearly,
    Option.none_or]
  simp only [Members.home?, h.homes]

/-- Once all methods are settled, the documents are the same. -/
theorem settled_document (h : Ahead early file rendered) :
    rendered.settled.document = file.settled.document := by
  have hmoves : rendered.members.moves rendered.members.waiting =
      file.members.moves rendered.members.waiting := by
    simp only [Members.moves, Members.home?, h.homes]
  rw [File.settled, File.settled, hmoves, h.document, ← moveEach_append, h.waiting,
    Members.moves, Members.moves, Members.moves, List.map_append]

/-- A file that is rendered gets ahead. -/
theorem render (h : Ahead early file rendered) (hsound : Sound file) :
    ∃ early', Ahead early' file (Step.state (File.render rendered)) := by
  cases hstray : rendered.members.firstStray? rendered.members.waiting with
  | some stray =>
    rw [render_of_stray hstray]
    exact ⟨early, h⟩
  | none =>
    rw [(h.sound hsound).render_of_no_stray hstray, Step.state_ofExcept]
    refine ⟨file.members.waiting, (List.append_nil _).symm, h.homes, ?_, h.settled_document⟩
    rwa [← h.firstStray?_eq]

theorem result_render (h : Ahead early file rendered) (hsound : Sound file) :
    Step.result (File.render rendered) = Step.result (File.render file) := by
  cases hstray : file.members.firstStray? file.members.waiting with
  | some stray =>
    rw [render_of_stray hstray, render_of_stray (h.firstStray?_eq.trans hstray)]
    rfl
  | none =>
    rw [hsound.render_of_no_stray hstray,
      (h.sound hsound).render_of_no_stray (h.firstStray?_eq.trans hstray), Step.result_ofExcept,
      Step.result_ofExcept, h.settled_document]

end Ahead

/-- A session with renderings gets ahead of the one without them, and calls are answered alike. -/
theorem ahead_of_session (requests : List Request)
    (hissued : (Request.transcript File.render (Request.calls requests) {}).UsesIssued)
    (hdeclared : (Request.transcript File.render (Request.calls requests) {}).declared.Nodup)
    (hroom : (Request.session File.render (Request.calls requests) {}).document.blocks.size ≤
      Handle.count) :
    (Request.transcript File.render requests {}).calls =
        Request.transcript File.render (Request.calls requests) {} ∧
      ∃ early, Ahead early (Request.session File.render (Request.calls requests) {})
        (Request.session File.render requests {}) := by
  induction requests using List.reverseRecOn with
  | nil => exact ⟨rfl, [], Ahead.refl {}⟩
  | append_singleton past request ih =>
    rw [Request.session_concat, Request.transcript_concat]
    cases request with
    | render =>
      rw [Request.calls_concat_render] at hissued hdeclared hroom ⊢
      obtain ⟨hanswers, early, hahead⟩ := ih hissued hdeclared hroom
      rw [Request.state_serve_render, Transcript.calls_concat_render]
      exact ⟨hanswers, hahead.render (sound_of_session _ hroom)⟩
    | call made =>
      rw [Request.calls_concat_call, Request.transcript_concat] at hissued hdeclared
      rw [Request.calls_concat_call, Request.session_concat, Request.state_serve_call] at hroom
      rw [Request.calls_concat_call, Request.transcript_concat, Request.session_concat,
        Request.state_serve_call, Request.state_serve_call, Transcript.calls_concat_call]
      have hpast := Nat.le_trans
        (size_le_of_run (pos_of_session (Request.calls past)) made) hroom
      obtain ⟨hanswers, early, hahead⟩ := ih (Transcript.usesIssued_concat.mp hissued).1
        (hdeclared.sublist (Transcript.declared_sublist ..)) hpast
      have hrecorded := recorded_of_session (Request.calls past) hpast
      have hblock : ∀ block ∈ made.block?, ∀ member ∈ early, block ≠ member.block := by
        intro block hblock member hmember
        exact hahead.ne_of_issued hrecorded ((Transcript.usesIssued_concat.mp hissued).2 _ hblock)
          hmember
      have hmodel : ∀ name fields reply file', made = .model name fields →
          made.run (Request.session File.render (Request.calls past) {}) = .ok reply file' →
          ∀ member ∈ early, member.model ≠ name := by
        rintro name fields reply file' rfl hrun member hmember
        apply hahead.ne_of_undeclared hrecorded _ hmember
        intro hold
        rw [Request.answer, hrun, Transcript.declared, List.filterMap_append] at hdeclared
        exact (List.nodup_append.mp hdeclared).2.2 _ hold _ (List.mem_singleton.mpr rfl) rfl
      obtain ⟨hresult, hahead'⟩ := hahead.run (sound_of_session _ hpast) hblock hmodel hroom
      rw [hanswers, Request.answer, Request.answer, hresult]
      exact ⟨rfl, early, hahead'⟩

end TypeScript

/-- However often a file is rendered on the way, it answers later calls and is rendered in the end
as if it had not been. A TypeScript file has to be used with handles that it returned and with a
different name for each model; a Go file may be used in every way. -/
theorem rendering_unnoticed (requests : List Request) :
    ((Request.transcript TypeScript.File.render (Request.calls requests) {}).UsesIssued →
      (Request.transcript TypeScript.File.render (Request.calls requests) {}).declared.Nodup →
      (Request.session TypeScript.File.render (Request.calls requests) {}).document.blocks.size ≤
        Handle.count →
      Request.Unnoticed TypeScript.File.render requests {}) ∧
    ∀ package, Request.Unnoticed Go.File.render requests { package } := by
  constructor
  · intro hissued hdeclared hroom
    obtain ⟨hanswers, early, hahead⟩ :=
      TypeScript.ahead_of_session requests hissued hdeclared hroom
    have hsound := TypeScript.sound_of_session _ hroom
    obtain ⟨early', hagain⟩ := hahead.render hsound
    refine ⟨hanswers, hahead.result_render hsound, ?_⟩
    rw [hagain.result_render hsound, hahead.result_render hsound]
  · intro package
    obtain ⟨hsession, hanswers⟩ := Go.session_calls requests { package }
    refine ⟨hanswers, ?_, ?_⟩
    · rw [hsession]
    · rw [Go.state_render]

/-- Two methods, one of them declared and rendered before its model is; the first body goes on after
the class is shown, and the second method comes later still. -/
def hastyRequests : List Request :=
  [.call (.method "Till" "count" [] none), .render, .call (.act ⟨2⟩ (.giveBack (.int 1))),
    .call (.model "Till" []), .render, .call (.enter ⟨2⟩ (.ifThen (.bool true))), .render,
    .call (.method "Till" "close" [] none), .render]

theorem rendering_unnoticed_hasty :
    (Request.transcript TypeScript.File.render (Request.calls hastyRequests) {}).UsesIssued ∧
    Request.Unnoticed TypeScript.File.render hastyRequests {} ∧
    Request.Unnoticed Go.File.render hastyRequests { package := "till" } := by
  obtain ⟨htypeScript, hgo⟩ := rendering_unnoticed hastyRequests
  have hissued : (Request.transcript TypeScript.File.render (Request.calls hastyRequests)
      {}).UsesIssued := by decide +kernel
  exact ⟨hissued, htypeScript hissued (by decide +kernel) (by decide +kernel), hgo "till"⟩

end Polyglot
