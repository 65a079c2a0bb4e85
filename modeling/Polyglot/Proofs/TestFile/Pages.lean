import Polyglot.Proofs.Document.Growth

/-! # Writing the block of a test

Test files are written line by line: a text is spelled, put into the block of the test, and then
the next one is spelled. A page is a document together with whatever spelling notes down. A step
that writes to a block of a page says as much as the spelling of all its texts; if that stops, some
lines are already in the block.
-/

namespace Polyglot

/-- States with a document and with notes that spelling makes. -/
structure Page (σ ι : Type) where
  document : σ → Document
  notes : σ → ι
  put : Document → ι → σ → σ
  document_put : ∀ document' notes' s, document (put document' notes' s) = document'
  notes_put : ∀ document' notes' s, notes (put document' notes' s) = notes'
  put_put : ∀ document' notes' document'' notes'' s,
    put document'' notes'' (put document' notes' s) = put document'' notes'' s
  put_self : ∀ s, put (document s) (notes s) s = s

namespace Page

variable {σ ι α : Type} (page : Page σ ι)

attribute [simp] document_put notes_put put_put put_self

/-- A step on the document. -/
def onDocument (step : Step Document α) : Step σ α :=
  Step.focus page.document (fun document s => page.put document (page.notes s) s) step

/-- Spelling, which does not look at the document. -/
def onNotes (step : Step ι α) : Step σ α :=
  Step.focus page.notes (fun notes s => page.put (page.document s) notes s) step

/-- The state with lines written to a block and with new notes. -/
def written (body : Handle) (texts : List String) (notes : ι) (s : σ) : σ :=
  page.put ((page.document s).append body (texts.map .line)) notes s

/-- The step writes the texts of a spelling to a block, up to the fault if the spelling stops. -/
def Writes (body : Handle) (spelling : Step ι (List String)) (step : Step σ Unit) : Prop :=
  ∀ ⦃s⦄, body.index < (page.document s).blocks.size →
    match spelling (page.notes s) with
    | .ok texts notes => step s = .ok () (page.written body texts notes s)
    | .error fault notes => ∃ texts, step s = .error fault (page.written body texts notes s)

variable {page} {body : Handle} {spelling : Step ι (List String)} {step : Step σ Unit}

theorem Writes.pure : page.Writes body (Pure.pure []) (Pure.pure ()) := by
  intro s _
  simp [written]

/-- A line before other lines. -/
theorem Writes.line (text : String) (h : page.Writes body spelling step) :
    page.Writes body (do return text :: (← spelling))
      (do page.onDocument (Document.addLine body text); step) := by
  intro s hlt
  have hline : page.onDocument (Document.addLine body text) s =
      .ok () (page.written body [text] (page.notes s) s) :=
    Step.focus_of_ok (Document.addLine_of_lt hlt text)
  have hrest := h (s := page.written body [text] (page.notes s) s) (by simpa [written] using hlt)
  have hnotes : page.notes (page.written body [text] (page.notes s) s) = page.notes s := by
    simp [written]
  have hmore : ∀ texts notes, page.written body texts notes
      (page.written body [text] (page.notes s) s) = page.written body (text :: texts) notes s := by
    intro texts notes
    simp [written]
  rw [hnotes] at hrest
  simp only [hmore] at hrest
  cases hspelling : spelling (page.notes s) with
  | ok texts notes =>
    rw [hspelling] at hrest
    rw [Step.bind_of_ok hspelling]
    exact (Step.bind_of_ok hline).trans hrest
  | error fault notes =>
    rw [hspelling] at hrest
    rw [Step.bind_of_error hspelling]
    obtain ⟨texts, hstop⟩ := hrest
    exact ⟨text :: texts, (Step.bind_of_ok hline).trans hstop⟩

/-- A text is spelled before lines are written. -/
theorem Writes.spell {rest : α → Step ι (List String)} {next : α → Step σ Unit}
    (h : ∀ a, page.Writes body (rest a) (next a)) (first : Step ι α) :
    page.Writes body (first >>= rest) (page.onNotes first >>= next) := by
  intro s hlt
  cases hfirst : first (page.notes s) with
  | ok a notes =>
    have hspell : page.onNotes first s = .ok a (page.put (page.document s) notes s) :=
      Step.focus_of_ok hfirst
    have hrest := h a (s := page.put (page.document s) notes s) (by simpa using hlt)
    rw [Step.bind_of_ok hfirst, Step.bind_of_ok hspell]
    simpa [written] using hrest
  | error fault notes =>
    have hspell : page.onNotes first s = .error fault (page.put (page.document s) notes s) :=
      Step.focus_of_error hfirst
    rw [Step.bind_of_error hfirst, Step.bind_of_error hspell]
    exact ⟨[], by simp [written]⟩

/-! ### A new block -/

variable (page) in
/-- The state with a further block that holds some lines. -/
def drafted (texts : List String) (notes : ι) (s : σ) : σ :=
  page.put (((page.document s).extend [{}]).append (.next (page.document s).blocks.size)
    (texts.map .line)) notes s

variable (page) in
/-- If there is a handle for the block, it holds nothing else. -/
theorem drafted_of_lt {s : σ} (h : (page.document s).blocks.size < Handle.count)
    (texts : List String) (notes : ι) : page.drafted texts notes s =
      page.put ((page.document s).extend [{ entries := (texts.map .line).toArray }]) notes s := by
  rw [drafted, Document.append_extend_next h]
  simp

section
variable {write : Handle → Step σ Unit} (h : ∀ body, page.Writes body spelling (write body))
  (finish : Handle → Step σ Unit) {s : σ} {notes : ι}
include h

/-- What a step writes to a new block. -/
theorem writes_newBlock (s : σ) :
    ∃ between, page.onDocument (Document.newBlock none) s =
        .ok (.next (page.document s).blocks.size) between ∧
      match spelling (page.notes s) with
      | .ok texts notes => write (.next (page.document s).blocks.size) between =
          .ok () (page.drafted texts notes s)
      | .error fault notes => ∃ texts, write (.next (page.document s).blocks.size) between =
          .error fault (page.drafted texts notes s) := by
  refine ⟨_, Step.focus_of_ok (Document.newBlock_eq_extend _ none), ?_⟩
  have hnext := Handle.index_next_le (page.document s).blocks.size
  have hwrite := h (.next (page.document s).blocks.size)
    (s := page.put ((page.document s).extend [{}]) (page.notes s) s) (by simp; omega)
  have hdrafted : ∀ texts notes, page.written (.next (page.document s).blocks.size) texts notes
      (page.put ((page.document s).extend [{}]) (page.notes s) s) =
        page.drafted texts notes s := by
    intro texts notes
    simp [written, drafted]
  rw [notes_put] at hwrite
  simpa only [hdrafted] using hwrite

/-- Lines that are written to a new block, before something is done with it. -/
theorem newBlock_of_ok {texts : List String}
    (hspelling : spelling (page.notes s) = .ok texts notes) :
    (page.onDocument (Document.newBlock none) >>= fun body => write body >>= fun _ =>
        finish body) s =
      finish (.next (page.document s).blocks.size) (page.drafted texts notes s) := by
  obtain ⟨between, hnew, hwrite⟩ := writes_newBlock h s
  rw [hspelling] at hwrite
  exact (Step.bind_of_ok hnew).trans (Step.bind_of_ok hwrite)

theorem newBlock_of_error {fault : Fault}
    (hspelling : spelling (page.notes s) = .error fault notes) :
    ∃ texts, (page.onDocument (Document.newBlock none) >>= fun body => write body >>= fun _ =>
      finish body) s = .error fault (page.drafted texts notes s) := by
  obtain ⟨between, hnew, hwrite⟩ := writes_newBlock h s
  rw [hspelling] at hwrite
  obtain ⟨texts, hstop⟩ := hwrite
  exact ⟨texts, (Step.bind_of_ok hnew).trans (Step.bind_of_error hstop)⟩

end

end Page

end Polyglot
