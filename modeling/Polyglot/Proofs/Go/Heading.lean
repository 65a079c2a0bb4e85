import Polyglot.Proofs.Go.Rendering

/-! # Headings of Go files

The text of a Go file is a heading, which depends on the package and the imports, followed by a
text that depends on the document alone. Whatever the paths of the packages are, more imports make a
longer heading, so that a file to which imports are added has the same text only if it had all of
them before.
-/

namespace Polyglot

/-- A buffer with further text at its front. -/
def Buffer.prepend (front : String) (buffer : Buffer) : Buffer :=
  { buffer with text := front ++ buffer.text }

theorem prepend_line (front : String) (level : Nat) (text : String) (buffer : Buffer) :
    Sink.line level text (buffer.prepend front) = (Sink.line level text buffer).prepend front := by
  rw [Sink.line, Sink.line]
  split
  · simp [Sink.newline, Buffer.prepend, String.push_eq_append, String.append_assoc]
  · simp [Sink.newline, Sink.emit, Sink.indent, Buffer.prepend, String.push_eq_append,
      String.append_assoc]

namespace Document

/-- Emission adds to a text and does not look at it. -/
theorem commutes_emitBlock (front : String) (document : Document) (depth level : Nat)
    (handle : Handle) :
    Step.Commutes (Buffer.prepend front) (document.emitBlock depth level handle) := by
  induction depth generalizing level handle with
  | zero =>
    intro buffer
    rfl
  | succ depth ih =>
    cases hfind : document.blocks[handle.index]? with
    | none =>
      intro buffer
      simp [emitBlock, hfind, Step.mapState]
    | some block =>
      rw [emitBlock_of_find hfind]
      induction block.entries.toList with
      | nil => exact .pure ()
      | cons entry rest ihRest =>
        rw [List.forM]
        refine Step.Commutes.bind ?_ fun _ => ihRest
        cases entry with
        | line text => exact .modify (prepend_line front level text)
        | block child => exact ih (level + 1) child

theorem renderAfter_prepend (front : String) (buffer : Buffer) (document : Document) :
    document.renderAfter (buffer.prepend front) =
      (document.renderAfter buffer).map fun text => front ++ text := by
  have hemit : document.emit (buffer.prepend front) =
      Step.mapState (Buffer.prepend front) (document.emit buffer) :=
    document.commutes_emitBlock front _ _ _ buffer
  rw [renderAfter, renderAfter, hemit]
  cases document.emit buffer <;> rfl

end Document

namespace Go

/-! ### Import blocks -/

/-- The import block of a file: nothing, one line, or a group. -/
def importBlock : List Package → String
  | [] => ""
  | [package] => "\nimport \"" ++ package.path ++ "\"\n"
  | packages => "\nimport (\n" ++
      String.join (packages.map fun package => "\t\"" ++ package.path ++ "\"\n") ++ ")\n"

theorem importBlock_group (first second : Package) (rest : List Package) :
    importBlock (first :: second :: rest) = "\nimport (\n" ++
      String.join ((first :: second :: rest).map fun package =>
        "\t\"" ++ package.path ++ "\"\n") ++ ")\n" := rfl

theorem display_quotedPath (package : Package) :
    Line.display ⟨1, quotedPath package⟩ = "\t\"" ++ package.path ++ "\"\n" := by
  have hpath : quotedPath package ≠ "" := by simp [quotedPath]
  have htab : Indent.tab.text 1 ++ "\"" = "\t\"" := by decide
  rw [Line.display, if_neg hpath, quotedPath, ← htab]
  simp only [String.append_assoc]
  rfl

theorem displayAll_quotedPaths (packages : List Package) :
    Line.displayAll (packages.map fun package => ⟨1, quotedPath package⟩) =
      String.join (packages.map fun package => "\t\"" ++ package.path ++ "\"\n") := by
  induction packages with
  | nil => rfl
  | cons package rest ih =>
    rw [List.map_cons, List.map_cons, Line.displayAll, ih, display_quotedPath, String.join_cons]

/-- The lines of the import clause make up the import block. -/
theorem displayAll_importLines (imports : Imports) :
    Line.displayAll (importLines imports) = importBlock imports.toList := by
  rw [importLines]
  cases imports.toList with
  | nil => rfl
  | cons first rest =>
    cases rest with
    | nil =>
      simp [importBlock, Line.displayAll, Line.display, Line.blank, quotedPath, ← String.toList_inj]
    | cons second rest =>
      simp only [importBlock_group, Line.displayAll, Line.displayAll_append, List.map_cons,
        List.cons_append, display_quotedPath, displayAll_quotedPaths, String.join_cons]
      simp [Line.display, Line.blank, ← String.toList_inj]

/-- The number of characters in the lines of packages in a group. -/
def groupLength : List Package → Nat
  | [] => 0
  | package :: rest => package.path.length + 4 + groupLength rest

theorem length_quotedLine (package : Package) :
    ("\t\"" ++ package.path ++ "\"\n").length = package.path.length + 4 := by
  rw [String.length_append, String.length_append, Nat.add_right_comm, Nat.add_comm]
  rfl

theorem length_join_quotedLines (packages : List Package) :
    (String.join (packages.map fun package => "\t\"" ++ package.path ++ "\"\n")).length =
      groupLength packages := by
  induction packages with
  | nil => rfl
  | cons package rest ih =>
    rw [List.map_cons, String.join_cons, String.length_append, length_quotedLine, ih, groupLength]

theorem length_importBlock_single (package : Package) :
    (importBlock [package]).length = package.path.length + 11 := by
  rw [importBlock, String.length_append, String.length_append, Nat.add_right_comm, Nat.add_comm]
  rfl

theorem length_importBlock_group (first second : Package) (rest : List Package) :
    (importBlock (first :: second :: rest)).length =
      groupLength (first :: second :: rest) + 12 := by
  rw [importBlock_group, String.length_append, String.length_append, length_join_quotedLines,
    Nat.add_right_comm, Nat.add_comm]
  rfl

/-- Packages that are left out make a group shorter. -/
theorem groupLength_le {fewer more : List Package} (h : fewer.Sublist more) :
    groupLength fewer + 4 * (more.length - fewer.length) ≤ groupLength more := by
  induction h with
  | slnil => exact Nat.le_refl 0
  | cons package _ ih =>
    simp only [groupLength, List.length_cons]
    omega
  | cons_cons package _ ih =>
    simp only [groupLength, List.length_cons]
    omega

/-- More packages make a longer block. -/
theorem length_importBlock_lt {fewer more : List Package} (h : fewer.Sublist more)
    (hlt : fewer.length < more.length) :
    (importBlock fewer).length < (importBlock more).length := by
  have hgroup := groupLength_le h
  match fewer, more with
  | [], [package] =>
    rw [length_importBlock_single]
    exact Nat.succ_pos _
  | [], first :: second :: rest =>
    rw [length_importBlock_group]
    exact Nat.succ_pos _
  | [package], first :: second :: rest =>
    have hsingle : groupLength [package] = package.path.length + 4 := rfl
    rw [length_importBlock_single, length_importBlock_group]
    omega
  | first :: second :: rest, first' :: second' :: rest' =>
    simp only [List.length_cons] at hlt hgroup
    rw [length_importBlock_group, length_importBlock_group]
    omega

/-- Package clause and imports. -/
def heading (package : String) (imports : Imports) : String :=
  Line.displayAll (⟨0, "package " ++ package⟩ :: importLines imports)

theorem heading_eq (package : String) (imports : Imports) :
    heading package imports = "package " ++ package ++ "\n" ++ importBlock imports.toList := by
  have hclause : "package " ++ package ≠ "" := by simp
  rw [heading, Line.displayAll, displayAll_importLines, Line.display, if_neg hclause]
  rfl

/-- Further imports show in the heading. -/
theorem heading_union_eq_iff {package : String} {imports noted : Imports} :
    heading package (imports.union noted) = heading package imports ↔
      imports.union noted = imports := by
  constructor
  · intro h
    have hsub : imports.toList.Sublist (imports.union noted).toList :=
      Imports.sublist_toList fun other hother => by simp [hother]
    have hblock : importBlock (imports.union noted).toList = importBlock imports.toList := by
      rw [heading_eq, heading_eq] at h
      exact (String.append_right_inj _).mp h
    have hle : (imports.union noted).toList.length ≤ imports.toList.length := by
      by_contra hlt
      have hlonger := length_importBlock_lt hsub (Nat.lt_of_not_le hlt)
      rw [hblock] at hlonger
      exact Nat.lt_irrefl _ hlonger
    exact Imports.toList_inj.mp (hsub.eq_of_length_le hle).symm
  · intro h
    rw [h]

/-! ### Headings and documents -/

/-- What follows the heading. -/
def remainder (document : Document) : Except Fault String := do
  if ← document.isEmptyAt .root then
    document.renderAfter (.ofIndent .tab)
  else
    document.renderAfter (Sink.line 0 "" (.ofIndent .tab))

theorem renderFile_eq_map (package : String) (imports : Imports) (document : Document) :
    renderFile package imports document =
      (remainder document).map fun text => heading package imports ++ text := by
  have hheading : emitImports imports (Sink.line 0 ("package " ++ package) (Buffer.ofIndent .tab)) =
      (Buffer.ofIndent .tab).prepend (heading package imports) := by
    rw [emitImports_eq]
    change Line.putAll ({ indent := .tab, text := "" } : Buffer)
      (⟨0, "package " ++ package⟩ :: importLines imports) = _
    rw [Line.putAll_buffer, String.empty_append]
    simp [Buffer.prepend, Buffer.ofIndent, heading]
  rw [renderFile, remainder, hheading]
  cases document.isEmptyAt .root with
  | error fault => rfl
  | ok empty =>
    cases empty with
    | true => exact Document.renderAfter_prepend ..
    | false =>
      change document.renderAfter (Sink.line 0 "" _) = _
      rw [prepend_line]
      exact Document.renderAfter_prepend ..

/-- A file to which imports are added, and which shows the same after the heading, has the same text
only if it had these imports before. -/
theorem renderFile_union_eq_iff {package : String} {imports noted : Imports}
    {document document' : Document} (hrest : remainder document' = remainder document) :
    renderFile package (imports.union noted) document' = renderFile package imports document ↔
      (∃ fault, renderFile package imports document = .error fault) ∨
        imports.union noted = imports := by
  rw [renderFile_eq_map, renderFile_eq_map, hrest]
  cases remainder document with
  | error fault =>
    constructor
    · intro _
      exact .inl ⟨fault, rfl⟩
    · intro _
      rfl
  | ok rest =>
    constructor
    · intro h
      exact .inr (heading_union_eq_iff.mp ((String.append_left_inj rest).mp (Except.ok.inj h)))
    · rintro (⟨_, ⟨⟩⟩ | hsame)
      rw [hsame]

end Go

end Polyglot
