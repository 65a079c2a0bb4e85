import Polyglot.Proofs.Go.Drawing
import Polyglot.Proofs.Replay

/-! # Rendered Go

A file prints what the script describes: the package clause, the packages that its clauses refer
to, and the declarations with everything nested in them.
-/

namespace Polyglot.Go

open Script Style

variable {package : String} {script past rest : List Order} {handles : Label → Handle}
  {file : File} {ω : Type} {document : Document} {depth : Nat}

theorem emitImports_eq {ε : Type} [Sink ε] (imports : Imports) (sink : ε) :
    emitImports imports sink = Line.putAll sink (importLines imports) := by
  rw [emitImports, importLines]
  cases imports.toList with
  | nil => rfl
  | cons first rest =>
    cases rest with
    | nil => rfl
    | cons second rest => simp [Line.putAll, Line.blank, quotedPath, List.foldl_map]

/-! ### Strays -/

theorem models_eq {body : Label → List (Outline ω)} :
    Section.models (rest.flatMap (Order.declared body)) = rest.filterMap modelOf := by
  induction rest with
  | nil => rfl
  | cons order rest ih =>
    rw [Section.models] at ih
    cases order <;> simp [Section.models, Order.declared, List.filterMap_cons, modelOf, ih]

theorem methods_eq {body : Label → List (Outline ω)} :
    Section.methods (rest.flatMap (Order.declared body)) = rest.filterMap methodOf := by
  induction rest with
  | nil => rfl
  | cons order rest ih =>
    rw [Section.methods] at ih
    cases order <;> simp [Section.methods, Order.declared, List.filterMap_cons, methodOf, ih]

theorem Drafted.firstStray?_eq (h : Drafted package script script handles file)
    (hscoped : Scoped script) :
    file.firstStray? = Section.firstStray? (sections script : List (Section ω)) := by
  rw [Section.firstStray?, hscoped.sections_eq, models_eq, methods_eq, File.firstStray?, h.methods,
    h.models]
  simp

/-! ### Printing -/

/-- Declarations are printed in order. -/
theorem prints_items (hscoped : Scoped script) (hroom : (style.roles script).length ≤ Handle.count)
    (h : style.Drawn script script handles document)
    (hdepth : (opened script).length + script.countP style.owns ≤ depth) (past : List Order)
    (hsplit : script = past ++ rest) :
    List.Forall₂ (document.Prints depth 0)
      ((rest.zipIdx past.length).flatMap fun (order, index) =>
        (shown (fun label => style.place script (.body label)) (style.place script (.own index))
          order).toList)
      ((rest.flatMap (Order.declared (bodies script : Label → List (Outline ω)))).map
        paragraph) := by
  have hfind : ∀ role ∈ style.roles script,
      document.blocks[(style.place script role).index]? =
        some (style.content script script role) := fun role hrole =>
    h.find hscoped hroom (List.append_nil script).symm hrole
  have hfilled := h.filled hscoped hroom
  induction rest generalizing past with
  | nil => exact .nil
  | cons order rest ih =>
    have hrest := ih (past ++ [order]) (by simpa using hsplit)
    rw [List.length_append, List.length_singleton] at hrest
    rw [List.zipIdx_cons, List.flatMap_cons, List.flatMap_cons, List.map_append]
    have hget : script[past.length]? = some order := by simp [hsplit]
    have howned : owns order = true → ∃ lower, depth = lower + 1 := by
      intro howns
      have hpos : 0 < script.countP style.owns :=
        List.countP_pos_iff.mpr ⟨order, by simp [hsplit], howns⟩
      exact ⟨depth - 1, by omega⟩
    cases order with
    | model name fields =>
      obtain ⟨lower, rfl⟩ := howned rfl
      have hblock := hfind _ (own_mem_roles hget rfl)
      refine .cons ?_ hrest
      refine (Document.Prints.block hblock ?_ (Document.Prints.nil.line _)).line _
      simpa [content, hget, ownBlock] using Document.Prints.texts _
    | enumeration name values =>
      cases values with
      | nil => exact .cons (Document.Prints.nil.line _) hrest
      | cons first others =>
        refine .cons ?_ hrest
        obtain ⟨lower, rfl⟩ := howned rfl
        have hblock := hfind _ (own_mem_roles hget rfl)
        refine Document.Prints.line _ (Document.Prints.line "" (Document.Prints.line _ ?_))
        refine Document.Prints.block hblock ?_ (Document.Prints.nil.line _)
        simpa [content, hget, ownBlock] using Document.Prints.texts _
    | method owner name params returns body =>
      refine .cons ?_ hrest
      exact hfilled.prints_method hscoped hsplit (by omega) 0 _
    | _ => exact hrest

theorem cons_intercalate {α : Type} (separator : α) {items : List (List α)} (h : items ≠ []) :
    separator :: [separator].intercalate items = items.flatMap fun item => separator :: item := by
  induction items with
  | nil => exact absurd rfl h
  | cons first rest ih =>
    cases rest with
    | nil => simp [List.intercalate]
    | cons second rest =>
      rw [List.flatMap_cons, ← ih (List.cons_ne_nil _ _)]
      simp [List.intercalate]

/-- The heading and the document together. -/
theorem renderFile_eq (hscoped : Scoped script)
    (hroom : (style.roles script).length ≤ Handle.count)
    (h : style.Drawn script script handles document) (package : String) (imports : Imports) :
    renderFile package imports document = .ok (Line.displayAll (⟨0, "package " ++ package⟩ ::
      (importLines imports ++ paragraphs (sections script : List (Section ω))))) := by
  have hroot := h.find_root hscoped hroom (List.append_nil script).symm
  have hitems := prints_items (ω := ω) hscoped hroom h (Nat.le_refl _) [] rfl
  rw [← hscoped.sections_eq] at hitems
  have hprints := Document.Prints.intercalate hitems
  have hsize := h.size
  rw [length_roles] at hsize
  have hheading : emitImports imports (Sink.line 0 ("package " ++ package) (Buffer.ofIndent .tab)) =
      { indent := .tab
        text := Line.displayAll (⟨0, "package " ++ package⟩ :: importLines imports) } := by
    rw [emitImports_eq]
    change Line.putAll ({ indent := .tab, text := "" } : Buffer)
      (⟨0, "package " ++ package⟩ :: importLines imports) = _
    rw [Line.putAll_buffer, String.empty_append]
  have hlength := hitems.length_eq
  change (style.items script script).length = _ at hlength
  rw [List.length_map] at hlength
  rw [renderFile, hheading, Document.isEmptyAt_of_find hroot, ← List.cons_append,
    Line.displayAll_append]
  generalize Line.displayAll (⟨0, "package " ++ package⟩ :: importLines imports) = heading
  by_cases hnil : style.items script script = []
  · have hempty : (style.content script script .root).entries.isEmpty = true := by
      simp [content, hnil, List.intercalate]
    have hsections : (sections script : List (Section ω)) = [] := by
      rw [hnil, List.length_nil] at hlength
      exact List.eq_nil_of_length_eq_zero hlength.symm
    rw [hempty]
    change document.renderAfter { indent := .tab, text := heading } = _
    rw [Document.renderAfter_of_prints hroot hsize hprints, hsections]
    rfl
  · have hempty : (style.content script script .root).entries.isEmpty = false := by
      simp [content, intercalate_items_eq_nil, hnil]
    have hsections : (sections script : List (Section ω)).map paragraph ≠ [] := by
      intro hmap
      rw [List.map_eq_nil_iff.mp hmap, List.length_nil] at hlength
      exact hnil (List.eq_nil_of_length_eq_zero hlength)
    rw [hempty]
    change document.renderAfter (Sink.line Line.blank.level Line.blank.text
      ({ indent := .tab, text := heading } : Buffer)) = _
    rw [Line.text_line, Document.renderAfter_of_prints hroot hsize hprints, String.append_assoc,
      ← Line.displayAll, cons_intercalate _ hsections, List.flatMap_map]
    rfl

/-- Rendering a file gives what the script describes, or the first method without a model. -/
theorem render_eq_rendered {handles' : Label → Handle} (hscoped : Scoped script)
    (h : run handles script ({ package } : File) = .ok handles' file)
    (hroom : file.document.blocks.size ≤ Handle.count) :
    Step.result (File.render file) =
      Section.rendered (print package) (sections script : List (Section ω)) := by
  have hsize := (drafting package).size_of_run h
  have hroom' : (style.roles script).length ≤ Handle.count := hsize ▸ hroom
  obtain ⟨hdrafted, -⟩ := (drafting package).holds_of_run hscoped hroom' h
  have hpackages : file.imports =
      packagesOf ((sections script : List (Section ω)).flatMap Section.clauses) :=
    Eq.trans hdrafted.imports (packagesOf_eq_of_perm hscoped.perm_map_clause.symm)
  rw [Section.rendered, ← hdrafted.firstStray?_eq hscoped, File.render,
    Step.bind_of_ok (Step.get_apply file)]
  cases hstray : file.firstStray? with
  | some stray => rfl
  | none =>
    simp only [renderFile_eq (ω := ω) hscoped hroom' hdrafted.drawn, hpackages,
      hdrafted.package_eq]
    rfl

theorem renders (package : String) : (drafting package).Renders File.render (print package) :=
  fun _ _ _ hscoped hrun hroom => render_eq_rendered hscoped hrun hroom

end Polyglot.Go
