import Mathlib.Data.List.Infix
import Polyglot.Proofs.Text.Unquoting

/-! # Literals delimit themselves

A reader that starts at a literal stops exactly at its end, whatever follows: it finds the content,
and it finds nothing if even one character at the end is missing. There are no control characters
in a literal, so that it stays on its line.
-/

namespace Polyglot.Text

/-- Reads a literal at the start of a text: its content, and the rest of the text. -/
def readLiteral (text : String) : Option (String × String) :=
  (readQuoted text.toList).map fun found => (String.ofList found.1, String.ofList found.2)

/-! ### Where literals end -/

theorem readContent_mark {mark c : Char} (h : readMark mark = some c) (rest : List Char) :
    readContent ('\\' :: mark :: rest) = (readContent rest).map (prepend c) := by
  have hmark : mark ≠ 'u' := by
    rintro rfl
    cases h
  rw [readContent.eq_def]
  cases hrest : readContent rest <;> simp [hmark, h, hrest]

/-- A literal that has been read is read alike with more text after it. -/
theorem readContent_append {text content rest : List Char} (more : List Char)
    (h : readContent text = some (content, rest)) :
    readContent (text ++ more) = some (content, rest ++ more) := by
  fun_induction readContent text generalizing content rest with
  | case1 => cases h
  | case2 rest' =>
    obtain ⟨rfl, rfl⟩ : [] = content ∧ rest' = rest := by simpa using h
    exact readContent_quote _
  | case3 a b c d rest' _ ih =>
    simp only [Option.pure_def, Option.bind_eq_bind, Option.bind_eq_some_iff] at h
    obtain ⟨code, hcode, found, hfound, hsame⟩ := h
    cases hsame
    simp [readContent, hcode, ih hfound, prepend]
  | case4 mark rest' _ _ ih =>
    simp only [Option.pure_def, Option.bind_eq_bind, Option.bind_eq_some_iff] at h
    obtain ⟨c, hmark, found, hfound, hsame⟩ := h
    cases hsame
    rw [List.cons_append, List.cons_append, readContent_mark hmark, ih hfound]
    rfl
  | case5 => cases h
  | case6 c rest' hquote hslash ih =>
    simp only [Option.pure_def, Option.bind_eq_bind, Option.bind_eq_some_iff] at h
    obtain ⟨found, hfound, hsame⟩ := h
    cases hsame
    rw [List.cons_append, readContent_plain hquote hslash, ih hfound]
    rfl

/-- Nothing can be read from a literal without its end. -/
theorem readQuoted_eq_none_of_prefix {content text : List Char} (h : text <+: quoteChars content)
    (hne : text ≠ quoteChars content) : readQuoted text = none := by
  cases text with
  | nil => rfl
  | cons c text =>
    obtain ⟨more, hmore⟩ := h
    obtain ⟨rfl, htext⟩ := List.cons.inj hmore
    cases hread : readQuoted ('"' :: text) with
    | none => rfl
    | some found =>
      -- What is missing would have to be left over when the whole literal is read.
      have hwhole := readQuoted_quoteChars content []
      rw [List.append_nil, ← hmore] at hwhole
      have hlonger := readContent_append more hread
      rw [show readContent (text ++ more) = _ from hwhole] at hlonger
      obtain ⟨-, -, rfl⟩ : content = found.1 ∧ found.2 = [] ∧ more = [] := by simpa using hlonger
      rw [List.append_nil] at hmore
      exact absurd hmore hne

/-! ### Control characters -/

theorem isControl_hexDigit (n : Nat) : isControl (hexDigit n) = false := by
  have hall : ∀ m < 16, isControl (Nat.digitChar m) = false := by decide
  exact hall (n % 16) (Nat.mod_lt n (by decide))

theorem isControl_of_mem_pair {mark d : Char} (hmark : isControl mark = false)
    (h : d ∈ ['\\', mark]) : isControl d = false := by
  rcases List.mem_cons.mp h with rfl | hd
  · decide
  · rw [List.mem_singleton.mp hd]
    exact hmark

theorem isControl_of_mem_escape {c d : Char} (h : d ∈ escape c) : isControl d = false := by
  rw [escape] at h
  split_ifs at h with hquote hslash hline hreturn htab hcontrol
  · exact isControl_of_mem_pair (by decide) h
  · exact isControl_of_mem_pair (by decide) h
  · exact isControl_of_mem_pair (by decide) h
  · exact isControl_of_mem_pair (by decide) h
  · exact isControl_of_mem_pair (by decide) h
  · simp only [fourHexDigits, List.mem_cons, List.not_mem_nil, or_false] at h
    rcases h with rfl | rfl | rfl | rfl | rfl | rfl
    · decide
    · decide
    all_goals apply isControl_hexDigit
  · obtain rfl := List.mem_singleton.mp h
    simpa using hcontrol

theorem isControl_of_mem_quoteChars {content : List Char} {c : Char} (h : c ∈ quoteChars content) :
    isControl c = false := by
  simp only [quoteChars, List.mem_cons, List.mem_append, List.mem_flatMap, List.not_mem_nil,
    or_false] at h
  rcases h with rfl | ⟨d, -, hc⟩ | rfl
  · decide
  · exact isControl_of_mem_escape hc
  · decide

/-- A literal is read back with whatever follows it, nothing is read from a part that breaks off
before its end, and no character in it belongs to either range of control characters. -/
theorem literal_delimits_itself (content : String) :
    (∀ rest, readLiteral (quote content ++ rest) = some (content, rest)) ∧
    (∀ text : String, text.toList <+: (quote content).toList → text ≠ quote content →
      readLiteral text = none) ∧
    ∀ c ∈ (quote content).toList,
      ¬ c.toNat ≤ 0x1F ∧ ¬ (0x7F ≤ c.toNat ∧ c.toNat ≤ 0x9F) := by
  refine ⟨?_, ?_, ?_⟩
  · intro rest
    rw [readLiteral, String.toList_append, quote, String.toList_ofList, readQuoted_quoteChars]
    simp
  · intro text hpart hne
    rw [quote, String.toList_ofList] at hpart
    have hshort : text.toList ≠ quoteChars content.toList := by
      intro hsame
      apply hne
      rw [quote, ← hsame, String.ofList_toList]
    rw [readLiteral, readQuoted_eq_none_of_prefix hpart hshort]
    rfl
  · intro c hc
    rw [quote, String.toList_ofList] at hc
    have hcontrol := isControl_of_mem_quoteChars hc
    simpa [isControl] using hcontrol

/-- Content that looks like escapes, before text that looks like more of it. -/
theorem literal_delimits_itself_escaped :
    readLiteral (quote "\\u0022\"\\\u0085" ++ "\\\"") = some ("\\u0022\"\\\u0085", "\\\"") ∧
      readLiteral "\"\\\\u0022\\\"" = none := by
  obtain ⟨hread, hpart, -⟩ := literal_delimits_itself "\\u0022\"\\\u0085"
  exact ⟨hread _, hpart _ (by decide) (by decide)⟩

end Polyglot.Text
