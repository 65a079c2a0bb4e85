import Mathlib.Data.List.DropRight
import Polyglot.Text.Blank

/-! # Trimmed texts

What trimming leaves of a text is the one part of it that neither begins nor ends with white space
and has nothing but white space around it. Of a text that is all white space nothing is left.
-/

namespace Polyglot.Text

/-- There is nothing but white space in the text. -/
def Blank (text : String) : Prop :=
  ∀ c ∈ text.toList, isBlank c = true

/-- The text is another one in white space, where the other one neither begins nor ends with white
space itself. -/
structure Frames (text inner : String) : Prop where
  around : ∃ before after, text = before ++ inner ++ after ∧ Blank before ∧ Blank after
  head : ∀ c ∈ inner.toList.head?, isBlank c = false
  last : ∀ c ∈ inner.toList.getLast?, isBlank c = false

section
variable {α : Type} {p : α → Bool} {dropped kept : List α}

theorem dropWhile_append_of_head (hdropped : ∀ a ∈ dropped, p a = true)
    (hkept : ∀ a ∈ kept.head?, p a = false) : (dropped ++ kept).dropWhile p = kept := by
  rw [List.dropWhile_append_of_pos hdropped]
  cases kept with
  | nil => rfl
  | cons a rest => simp [hkept a rfl]

theorem rdropWhile_append_of_last (hdropped : ∀ a ∈ dropped, p a = true)
    (hkept : ∀ a ∈ kept.getLast?, p a = false) : (kept ++ dropped).rdropWhile p = kept := by
  rw [List.rdropWhile, List.reverse_append, dropWhile_append_of_head, List.reverse_reverse]
  · simpa using hdropped
  · simpa using hkept

theorem head_dropWhile {cs : List α} {c : α} (h : c ∈ (cs.dropWhile p).head?) : p c = false := by
  have hhead := List.head?_dropWhile_not p cs
  rw [Option.mem_def.mp h] at hhead
  exact hhead

end

/-- Characters are dropped from the front and then from the back. -/
theorem trimChars_eq (cs : List Char) :
    trimChars cs = (cs.dropWhile isBlank).rdropWhile isBlank := rfl

theorem frames_trim (text : String) : Frames text (trim text) where
  around := by
    refine ⟨String.ofList (text.toList.takeWhile isBlank),
      String.ofList ((text.toList.dropWhile isBlank).rtakeWhile isBlank), ?_, ?_, ?_⟩
    · rw [trim, trimChars_eq, ← String.ofList_append, ← String.ofList_append, List.append_assoc,
        List.rdropWhile_append_rtakeWhile, List.takeWhile_append_dropWhile, String.ofList_toList]
    · intro c hc
      rw [String.toList_ofList] at hc
      exact List.mem_takeWhile_imp hc
    · intro c hc
      rw [String.toList_ofList] at hc
      exact List.mem_rtakeWhile_imp hc
  head := by
    intro c hc
    rw [trim, String.toList_ofList, trimChars_eq] at hc
    -- What stays after dropping from the back begins as it did before.
    have hfront : c ∈ (text.toList.dropWhile isBlank).head? := by
      obtain ⟨rest, hrest⟩ := List.rdropWhile_prefix isBlank (text.toList.dropWhile isBlank)
      rw [← hrest, List.head?_append, Option.mem_def.mp hc]
      rfl
    exact head_dropWhile hfront
  last := by
    intro c hc
    rw [trim, String.toList_ofList, trimChars_eq] at hc
    obtain ⟨hne, rfl⟩ := List.mem_getLast?_eq_getLast hc
    exact Bool.eq_false_iff.mpr (List.rdropWhile_last_not isBlank _ hne)

/-- Trimming takes off the white space around a text, and nothing else. -/
theorem trim_eq_iff {text inner : String} : trim text = inner ↔ Frames text inner := by
  constructor
  · rintro rfl
    exact frames_trim text
  · rintro ⟨⟨before, after, rfl, hbefore, hafter⟩, hhead, hlast⟩
    rw [trim, String.toList_append, String.toList_append, List.append_assoc, trimChars_eq]
    by_cases hempty : inner.toList = []
    · -- Nothing stays, so that all is dropped from the front already.
      have hblank : (before.toList ++ (inner.toList ++ after.toList)).dropWhile isBlank = [] := by
        rw [List.dropWhile_append_of_pos hbefore, hempty]
        exact List.dropWhile_eq_nil_iff.mpr hafter
      rw [hblank, String.toList_eq_nil_iff.mp hempty]
      rfl
    · rw [dropWhile_append_of_head hbefore, rdropWhile_append_of_last hafter hlast,
        String.ofList_toList]
      rwa [List.head?_append_of_ne_nil _ hempty]

theorem trim_eq_empty_iff {text : String} : trim text = "" ↔ Blank text := by
  rw [trim_eq_iff]
  constructor
  · rintro ⟨⟨before, after, rfl, hbefore, hafter⟩, -, -⟩
    intro c hc
    simp only [String.toList_append, List.mem_append] at hc
    rcases hc with (hc | hc) | hc
    · exact hbefore c hc
    · cases hc
    · exact hafter c hc
  · intro h
    exact ⟨⟨text, "", by simp, h, by simp [Blank]⟩, by simp, by simp⟩

end Polyglot.Text
