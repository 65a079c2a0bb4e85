import Polyglot.Proofs.Go.Qualifiers

/-! # Reading literals

Values that refer to no variables are read as they were meant: the text of such a value refers to
exactly the packages that the value needs. Nothing that stands between quotes is taken for code, no
number is taken for a name, and nothing runs into what stands next to it.
-/

namespace Polyglot

/-! ### Names in literals -/

/-- The models that a type names. -/
def Ty.models : Ty → List String
  | .primitive _ => []
  | .model name => [name]
  | .array element => element.models
  | .map key value => key.models ++ value.models
  | .pointer pointee => pointee.models

/-- The models in the types that a literal spells out itself. -/
def Value.models : Value → List String
  | .array element _ => element.models
  | .map key value _ => key.models ++ value.models
  | _ => []

/-- Nothing in the value refers to a variable, and all models in it are named by words. -/
def Value.Plain (value : Value) : Prop :=
  ∀ part, value.Holds part →
    part.kind.isReference = false ∧ ∀ name ∈ part.models, Go.Word name

theorem Value.Plain.child {value child : Value} (h : value.Plain) (hchild : child ∈ value.children) :
    child.Plain := by
  intro part hholds
  exact h part (.head hchild hholds)

namespace Go

/-! ### Quotes -/

theorem digitChar_ne {n : Nat} (h : n < 16) :
    Nat.digitChar n ≠ '"' ∧ Nat.digitChar n ≠ '\\' := by
  revert n
  decide

/-- Nothing that is written for a character ends a literal. -/
theorem after_escape (c : Char) :
    Place.literal.after (Text.escape c) = .literal ∧ Place.literal.read (Text.escape c) = [] := by
  have hhex : ∀ n, Place.next .literal (Text.hexDigit n) = .literal := by
    intro n
    obtain ⟨hquote, hslash⟩ := digitChar_ne (Nat.mod_lt n (by decide : 0 < 16))
    rw [Place.next, Text.hexDigit, if_neg hquote, if_neg hslash]
  rw [Text.escape]
  split_ifs with hquote hslash
  · exact ⟨rfl, rfl⟩
  · exact ⟨rfl, rfl⟩
  · exact ⟨rfl, rfl⟩
  · exact ⟨rfl, rfl⟩
  · exact ⟨rfl, rfl⟩
  · have hstart : ∀ c, Place.next .escaped c = .literal := fun _ => rfl
    have hslash : Place.next .literal '\\' = .escaped := rfl
    simp [Text.fourHexDigits, Place.after, Place.read, hslash, hstart, hhex]
  · simp [Place.after, Place.read, Place.next, hquote, hslash]

theorem after_content (content : List Char) :
    Place.literal.after (content.flatMap Text.escape) = .literal ∧
      Place.literal.read (content.flatMap Text.escape) = [] := by
  induction content with
  | nil => exact ⟨rfl, rfl⟩
  | cons c rest ih =>
    obtain ⟨hafter, hread⟩ := after_escape c
    rw [List.flatMap_cons, Place.after_append, Place.read_append, hafter, hread]
    exact ih

/-- Whatever it says, a literal refers to nothing. -/
theorem bare_quote (content : String) : Bare (Text.quote content) := by
  obtain ⟨hafter, hread⟩ := after_content content.toList
  have htext : (Text.quote content).toList =
      '"' :: (content.toList.flatMap Text.escape ++ ['"']) := by
    simp [Text.quote, Text.quoteChars]
  have hcode : Place.code.read (Text.quote content).toList = ['"'] := by
    rw [htext, Place.read]
    change '"' :: Place.literal.read _ = _
    rw [Place.read_append, hread, hafter]
    rfl
  refine ⟨?_, fun package _ => ?_⟩
  · rw [htext]
    change Place.literal.after _ = _
    rw [Place.after_append, hafter]
    rfl
  · rw [refersTo, hcode, codeRefersTo_of_not_mem (c := '.') (by simp) (by decide)]
    simp

/-! ### Numbers -/

theorem isDigit_of_mem_natDigits {n : Nat} {c : Char} (h : c ∈ Decimal.natDigits n) :
    c.isDigit = true :=
  Nat.isDigit_of_mem_toDigits (by decide) (by decide) h

theorem bare_intText (n : Int) : Bare (Decimal.intText n) := by
  apply bare_of_number
  intro c hc
  rw [Decimal.intText] at hc
  split at hc
  · simp only [Decimal.natText, String.toList_append, String.toList_ofList, List.mem_append] at hc
    rcases hc with hc | hc
    · exact .inr (.inr (by simpa using hc))
    · exact .inl (isDigit_of_mem_natDigits hc)
  · simp only [Decimal.natText, String.toList_ofList] at hc
    exact .inl (isDigit_of_mem_natDigits hc)

theorem isDigit_or_of_mem_positional {coefficient : Nat} {place : Int} {c : Char}
    (h : c ∈ Decimal.positional coefficient place) : c.isDigit = true ∨ c = '.' := by
  have hzeros : ∀ n, c ∈ List.replicate n '0' → c.isDigit = true := by
    intro n hc
    rw [(List.mem_replicate.mp hc).2]
    rfl
  have hpadded : ∀ n, c ∈ List.replicate n '0' ++ Decimal.natDigits coefficient →
      c.isDigit = true := by
    intro n hc
    rcases List.mem_append.mp hc with hc | hc
    · exact hzeros n hc
    · exact isDigit_of_mem_natDigits hc
  simp only [Decimal.positional] at h
  split_ifs at h
  · rcases List.mem_append.mp h with hc | hc
    · exact .inl (isDigit_of_mem_natDigits hc)
    · exact .inl (hzeros _ hc)
  · exact .inl (hpadded _ (List.mem_of_mem_take h))
  · rcases List.mem_append.mp h with hc | hc
    · exact .inl (hpadded _ (List.mem_of_mem_take hc))
    · rcases List.mem_cons.mp hc with hc | hc
      · exact .inr hc
      · rw [List.mem_reverse] at hc
        have hfraction := List.mem_reverse.mp ((List.dropWhile_sublist _).subset hc)
        exact .inl (hpadded _ (List.mem_of_mem_drop hfraction))

theorem isDigit_or_of_mem_magnitudeText {bits : UInt64} {c : Char}
    (h : c ∈ (Decimal.magnitudeText bits).toList) : c.isDigit = true ∨ c = '.' := by
  rw [Decimal.magnitudeText] at h
  split at h
  · obtain rfl : c = '0' := by simpa using h
    exact .inl rfl
  · rw [String.toList_ofList] at h
    exact isDigit_or_of_mem_positional h

/-- Finite numbers consist of digits, points and signs. -/
theorem isDigit_or_of_mem_finiteText {bits : UInt64} {text : String}
    (h : Decimal.finiteText? bits = some text) :
    ∀ c ∈ text.toList, c.isDigit = true ∨ c = '.' ∨ c = '-' := by
  intro c hc
  rw [Decimal.finiteText?] at h
  split at h
  · obtain rfl := Option.some.inj h
    split at hc
    · rw [String.toList_append] at hc
      rcases List.mem_append.mp hc with hc | hc
      · exact .inr (.inr (by simpa using hc))
      · exact (isDigit_or_of_mem_magnitudeText hc).imp_right .inl
    · exact (isDigit_or_of_mem_magnitudeText hc).imp_right .inl
  · cases h

theorem isDigit_or_of_mem_fractional {bits : UInt64} {text : String}
    (h : Decimal.finiteText? bits = some text) :
    ∀ c ∈ (fractional text).toList, c.isDigit = true ∨ c = '.' ∨ c = '-' := by
  have hzero : ∀ c ∈ ".0".toList, c.isDigit = true ∨ c = '.' ∨ c = '-' := by simp
  rw [fractional]
  split
  · exact isDigit_or_of_mem_finiteText h
  · intro c hc
    rw [String.toList_append] at hc
    rcases List.mem_append.mp hc with hc | hc
    · exact isDigit_or_of_mem_finiteText h c hc
    · exact hzero c hc

theorem bare_fractional {bits : UInt64} {text : String}
    (h : Decimal.finiteText? bits = some text) : Bare (fractional text) :=
  bare_of_number (isDigit_or_of_mem_fractional h)

/-! ### Types and values -/

theorem glue_opening : Glue "\x7b" :=
  glue_of_ends (by decide) (by decide) rfl rfl (by decide)

theorem glue_closing : Glue "\x7d" :=
  glue_of_ends (by decide) (by decide) rfl rfl (by decide)

theorem glue_comma : Glue ", " :=
  glue_of_ends (by decide) (by decide) rfl rfl (by decide)

theorem glue_blank : Glue " " :=
  glue_of_ends (by decide) (by decide) rfl rfl (by decide)

theorem glue_parenthesis : Glue ")" :=
  glue_of_ends (by decide) (by decide) rfl rfl (by decide)

theorem bare_typeText {ty : Ty} (hwords : ∀ name ∈ ty.models, Word name) {text : String}
    (h : typeText ty = .ok text) : Bare text := by
  induction ty generalizing text with
  | primitive kind =>
    cases h
    cases kind <;> exact bare_of_no_point (by decide) (by decide)
  | model name =>
    cases h
    exact (hwords name (List.mem_singleton_self name)).bare
  | array element ih =>
    rw [typeText] at h
    obtain ⟨elementText, helement, h⟩ := Step.outcome_bind_eq_ok_iff.mp h
    cases h
    have hglue : Glue "[]" := glue_of_ends (by decide) (by decide) rfl rfl (by decide)
    exact .lead hglue.bare hglue.closes (ih hwords helement)
  | map key value ihKey ihValue =>
    rw [typeText] at h
    obtain ⟨keyText, hkey, h⟩ := Step.outcome_bind_eq_ok_iff.mp h
    obtain ⟨valueText, hvalue, h⟩ := Step.outcome_bind_eq_ok_iff.mp h
    cases h
    have hkeyWords : ∀ name ∈ key.models, Word name := fun name hname =>
      hwords name (List.mem_append_left _ hname)
    have hvalueWords : ∀ name ∈ value.models, Word name := fun name hname =>
      hwords name (List.mem_append_right _ hname)
    have hstart : Bare ("map[" ++ keyText) :=
      .lead (bare_of_no_point (by decide) (by decide)) (closes_of_last rfl rfl)
        (ihKey hkeyWords hkey)
    have hglue : Glue "]" := glue_of_ends (by decide) (by decide) rfl rfl (by decide)
    exact (hstart.join hglue (ihValue hvalueWords hvalue)).congr fun package => by simp
  | pointer pointee => cases h

theorem reads_floatText {bits : UInt64} {text : String} {imports imports' : Imports}
    (h : floatText bits imports = .ok text imports') : Reads (Value.float bits).Needs text := by
  rw [floatText] at h
  cases hbits : Decimal.finiteText? bits with
  | some spelled =>
    rw [hbits] at h
    cases h
    have hfinite : Double.isFinite bits = true := by
      by_contra hnot
      simp [Decimal.finiteText?, hnot] at hbits
    exact (bare_fractional hbits).congr fun package => by simp [Value.needs_float, hfinite]
  | none =>
    rw [hbits] at h
    cases h
    have hfinite : Double.isFinite bits = false := by
      by_contra hnot
      simp [Decimal.finiteText?, hnot] at hbits
    have hmath : Reads (fun package => package = .math)
        (if Double.isNaN bits then "math.NaN()"
          else if Double.isNegative bits then "math.Inf(-1)" else "math.Inf(1)") := by
      split_ifs <;> exact ⟨rfl, by decide +kernel⟩
    exact hmath.congr fun package => by simp [Value.needs_float, hfinite]

theorem reads_grouped {value : Value} {packages : Package → Prop} {text : String}
    (h : Reads packages text) : Reads packages (Lowering.grouped value text) := by
  rw [Lowering.grouped]
  split
  · have hglue : Glue "(" := glue_of_ends (by decide) (by decide) rfl rfl (by decide)
    exact Reads.close (.lead hglue.bare hglue.closes h) glue_parenthesis
  · exact h

theorem reads_commaSeparated {packages others : Package → Prop} {first : String}
    {rest : List String} (hfirst : Reads packages first)
    (hrest : Reads others (Text.commaSeparated rest)) :
    Reads (fun package => packages package ∨ others package)
      (Text.commaSeparated (first :: rest)) := by
  cases rest with
  | nil =>
    refine ⟨hfirst.closed, fun package hknown => ?_⟩
    rw [← hrest.refers package hknown, ← hfirst.refers package hknown]
    simp [Text.commaSeparated, refersTo, Place.read, codeRefersTo_nil]
  | cons second rest => exact hfirst.join glue_comma hrest

/-- A literal that calls nothing itself refers to what its parts need. -/
theorem Reads.of_children {value : Value} {text : String}
    (h : Reads (NeededBy value.children) text) (hcalls : ∀ package, ¬ value.Calls package) :
    Reads value.Needs text :=
  h.congr fun package => by rw [Value.needs_iff, or_iff_right (hcalls package), NeededBy]

mutual
/-- The text of a literal refers to the packages that it needs. -/
theorem reads_valueText : (value : Value) → value.Plain → ∀ {imports imports' text},
    valueText none value imports = .ok text imports' → Reads value.Needs text
  | .null, _ => fun h => by
    cases h
    exact Reads.of_children (bare_of_no_point (by decide) (by decide)) fun package => id
  | .text content, _ => fun h => by
    cases h
    exact Reads.of_children (bare_quote content) fun package => id
  | .int n, _ => fun h => by
    cases h
    exact Reads.of_children (bare_intText n.toInt) fun package => id
  | .bool b, _ => fun h => by
    cases h
    cases b <;>
      exact Reads.of_children (bare_of_no_point (by decide) (by decide)) fun package => id
  | .float bits, _ => fun h => by
    rw [valueText] at h
    exact reads_floatText h
  | .array element elements, hplain => fun h => by
    rw [valueText] at h
    obtain ⟨type, htype, h⟩ := Step.lift_bind_eq_ok_iff.mp h
    obtain ⟨texts, _, htexts, h⟩ := Step.bind_eq_ok_iff.mp h
    cases h
    have hwords : ∀ name ∈ (Ty.array element).models, Word name := (hplain _ .refl).2
    have htypeText := bare_typeText hwords htype
    have helements := reads_valueTexts elements (fun value hvalue => hplain.child hvalue) htexts
    refine Reads.of_children ?_ fun package => id
    exact ((htypeText.join glue_opening helements).close glue_closing).congr fun package => by
      simp [Value.children]
  | .map key value entries, hplain => fun h => by
    rw [valueText] at h
    obtain ⟨type, htype, h⟩ := Step.lift_bind_eq_ok_iff.mp h
    obtain ⟨texts, _, htexts, h⟩ := Step.bind_eq_ok_iff.mp h
    cases h
    have hwords : ∀ name ∈ (Ty.map key value).models, Word name := (hplain _ .refl).2
    have htypeText := bare_typeText hwords htype
    have hentries := reads_entryTexts entries (fun value hvalue => hplain.child hvalue) htexts
    refine Reads.of_children ?_ fun package => id
    exact ((htypeText.join glue_opening hentries).close glue_closing).congr fun package => by
      simp [Value.children]
  | .binding _, hplain | .ownField _, hplain | .modelField _ _, hplain
  | .arrayElement _ _, hplain | .mapElement _ _, hplain => fun _ =>
    absurd (hplain _ .refl).1 (by simp [Value.kind, Kind.isReference])
  | .combined left op right, hplain => fun h => by
    rw [valueText] at h
    obtain ⟨leftText, _, hleft, h⟩ := Step.bind_eq_ok_iff.mp h
    obtain ⟨rightText, _, hright, h⟩ := Step.bind_eq_ok_iff.mp h
    cases h
    have hsymbol : Bare op.symbol := by
      cases op <;> exact bare_of_no_point (by decide) (by decide)
    have hleftText := reads_valueText left (hplain.child (by simp [Value.children])) hleft
    have hrightText := reads_valueText right (hplain.child (by simp [Value.children])) hright
    refine Reads.of_children ?_ fun package => id
    exact (((reads_grouped hleftText).join glue_blank hsymbol).join glue_blank
      (reads_grouped hrightText)).congr fun package => by simp [Value.children, NeededBy]
  | .intToText inner, hplain => fun h => by
    rw [valueText] at h
    obtain ⟨_, _, _, h⟩ := Step.bind_eq_ok_iff.mp h
    obtain ⟨innerText, _, hinner, h⟩ := Step.bind_eq_ok_iff.mp h
    cases h
    have hinnerText := reads_valueText inner (hplain.child (by simp [Value.children])) hinner
    have hcall : Reads (fun package => package = .strconv) "strconv.FormatInt(int64(" :=
      ⟨rfl, by decide +kernel⟩
    have hglue : Glue "), 10)" := glue_of_ends (by decide) (by decide) rfl rfl (by decide)
    exact ((hcall.then_append hinnerText (closes_of_last rfl rfl)).close hglue).congr
      fun package => (Value.needs_intToText inner package).symm

theorem reads_valueTexts : (values : List Value) → (∀ value ∈ values, value.Plain) →
    ∀ {imports imports' texts}, valueTexts none values imports = .ok texts imports' →
      Reads (NeededBy values) (Text.commaSeparated texts)
  | [], _ => fun h => by
    cases h
    exact bare_of_no_point (by decide) (by decide)
  | value :: rest, hplain => fun h => by
    rw [valueTexts] at h
    obtain ⟨text, _, htext, h⟩ := Step.bind_eq_ok_iff.mp h
    obtain ⟨texts, _, htexts, h⟩ := Step.bind_eq_ok_iff.mp h
    cases h
    have hfirst := reads_valueText value (hplain value List.mem_cons_self) htext
    have hrest := reads_valueTexts rest
      (fun other hother => hplain other (List.mem_cons_of_mem value hother)) htexts
    exact (reads_commaSeparated hfirst hrest).congr fun package => by simp [NeededBy]

theorem reads_entryTexts : (entries : List (Value × Value)) →
    (∀ value ∈ entries.flatMap fun entry => [entry.1, entry.2], value.Plain) →
    ∀ {imports imports' texts}, entryTexts none entries imports = .ok texts imports' →
      Reads (NeededBy (entries.flatMap fun entry => [entry.1, entry.2]))
        (Text.commaSeparated texts)
  | [], _ => fun h => by
    cases h
    exact bare_of_no_point (by decide) (by decide)
  | (key, value) :: rest, hplain => fun h => by
    rw [entryTexts] at h
    obtain ⟨keyText, _, hkey, h⟩ := Step.bind_eq_ok_iff.mp h
    obtain ⟨text, _, htext, h⟩ := Step.bind_eq_ok_iff.mp h
    obtain ⟨texts, _, htexts, h⟩ := Step.bind_eq_ok_iff.mp h
    cases h
    have hkeyText := reads_valueText key (hplain key (by simp)) hkey
    have hvalueText := reads_valueText value (hplain value (by simp)) htext
    have hrest := reads_entryTexts rest
      (fun other hother => hplain other (List.mem_append_right [key, value] hother)) htexts
    have hglue : Glue ": " := glue_of_ends (by decide) (by decide) rfl rfl (by decide)
    exact (reads_commaSeparated (hkeyText.join hglue hvalueText) hrest).congr fun package => by
      simp [NeededBy, or_assoc]
end

end Go

end Polyglot
