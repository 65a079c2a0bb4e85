import Mathlib.Data.List.Forall2
import Mathlib.Data.List.TakeDrop
import Polyglot.Options
import Polyglot.Proofs.Step
import Polyglot.Proofs.Text.Trimming

/-! # Entries of options

An entry gives a key a value: they stand before and after its first equals sign, in white space. A
list of entries can be read exactly if each of them gives something, and then it sets every key to
the value that the last entry for this key gives. Otherwise the first entry that gives nothing is
the fault.
-/

namespace Polyglot.Options

/-- The entry has an equals sign, and what stands before the first one is not all white space. -/
def WellFormed (entry : String) : Prop :=
  ∃ before after : String, entry = before ++ "=" ++ after ∧ '=' ∉ before.toList ∧
    ¬ Text.Blank before

/-- Key and value are what stands before and after the first equals sign of the entry, without the
white space around it. The key is not empty. -/
def Gives (entry key value : String) : Prop :=
  ∃ before after : String, entry = before ++ "=" ++ after ∧ '=' ∉ before.toList ∧
    Text.Frames before key ∧ Text.Frames after value ∧ key ≠ ""

/-- The last entry for the key gives the value. -/
def LastGives (entries : List String) (key value : String) : Prop :=
  ∃ earlier entry later, entries = earlier ++ entry :: later ∧ Gives entry key value ∧
    ∀ other ∈ later, ∀ overriding, ¬ Gives other key overriding

/-- Settings with those of other options in place of earlier ones. -/
def override (options later : Options) : Options :=
  { entries := later.entries ++ options.entries }

/-! ### One entry -/

section
variable {entry before after key value : String}

/-- An entry is split at its first equals sign. -/
theorem splitEntry?_append (h : '=' ∉ before.toList) :
    splitEntry? (before ++ "=" ++ after) = some (before, after) := by
  have hbefore : ∀ c ∈ before.toList, decide (c ≠ '=') = true := by
    intro c hc
    apply decide_eq_true
    rintro rfl
    exact h hc
  have hspan : (before ++ "=" ++ after).toList.span (· ≠ '=') =
      (before.toList, '=' :: after.toList) := by
    rw [List.span_eq_takeWhile_dropWhile, String.toList_append, String.toList_append,
      List.append_assoc, List.takeWhile_append_of_pos hbefore, List.dropWhile_append_of_pos hbefore]
    simp
  rw [ splitEntry?, hspan]
  simp

theorem splitEntry?_of_not_mem (h : '=' ∉ entry.toList) : splitEntry? entry = none := by
  have hrest : entry.toList.dropWhile (· ≠ '=') = [] := by
    apply List.dropWhile_eq_nil_iff.mpr
    intro c hc
    apply decide_eq_true
    rintro rfl
    exact h hc
  rw [ splitEntry?, List.span_eq_takeWhile_dropWhile, hrest]

theorem exists_split (h : '=' ∈ entry.toList) :
    ∃ before after : String, entry = before ++ "=" ++ after ∧ '=' ∉ before.toList := by
  obtain ⟨before, after, hsplit, hfirst⟩ := List.eq_append_cons_of_mem h
  refine ⟨String.ofList before, String.ofList after, ?_, by simpa using hfirst⟩
  apply String.toList_injective
  simpa using hsplit

theorem parseEntry_of_gives (h : Gives entry key value) : parseEntry entry = .ok (key, value) := by
  obtain ⟨before, after, rfl, hfirst, hkey, hvalue, hne⟩ := h
  rw [← Text.trim_eq_iff.mpr hkey] at hne
  rw [parseEntry, splitEntry?_append hfirst, ← Text.trim_eq_iff.mpr hkey,
    ← Text.trim_eq_iff.mpr hvalue]
  exact if_neg hne

theorem parseEntry_of_malformed (h : ¬ WellFormed entry) :
    parseEntry entry = .error (.configuration "args" (.malformedEntry entry)) := by
  rw [parseEntry]
  by_cases hmem : '=' ∈ entry.toList
  · obtain ⟨before, after, rfl, hfirst⟩ := exists_split hmem
    have hblank : Text.Blank before := by
      by_contra hblank
      exact h ⟨before, after, rfl, hfirst, hblank⟩
    rw [splitEntry?_append hfirst]
    exact if_pos (Text.trim_eq_empty_iff.mpr hblank)
  · rw [splitEntry?_of_not_mem hmem]
    rfl

/-- The well-formed entries are those that give something. -/
theorem wellFormed_iff : WellFormed entry ↔ ∃ key value, Gives entry key value := by
  constructor
  · rintro ⟨before, after, hentry, hfirst, hblank⟩
    refine ⟨Text.trim before, Text.trim after, before, after, hentry, hfirst,
      Text.frames_trim before, Text.frames_trim after, ?_⟩
    rwa [ne_eq, Text.trim_eq_empty_iff]
  · rintro ⟨key, value, before, after, hentry, hfirst, hkey, -, hne⟩
    refine ⟨before, after, hentry, hfirst, ?_⟩
    rwa [← Text.trim_eq_empty_iff, Text.trim_eq_iff.mpr hkey]

/-- Reading an entry finds what it gives. -/
theorem parseEntry_eq_ok_iff : parseEntry entry = .ok (key, value) ↔ Gives entry key value := by
  constructor
  · intro h
    by_cases hformed : WellFormed entry
    · obtain ⟨key', value', hgives⟩ := wellFormed_iff.mp hformed
      rw [parseEntry_of_gives hgives] at h
      cases h
      exact hgives
    · rw [parseEntry_of_malformed hformed] at h
      cases h
  · exact parseEntry_of_gives

/-- An entry does not give two things. -/
theorem Gives.unique {key' value' : String} (h : Gives entry key value)
    (h' : Gives entry key' value') : key = key' ∧ value = value' := by
  have hsame := (parseEntry_of_gives h).symm.trans (parseEntry_of_gives h')
  cases hsame
  exact ⟨rfl, rfl⟩

end

/-! ### Settings of pairs -/

section
variable {key : String}

theorem foldl_insert (pairs : List (String × String)) (options : Options) :
    pairs.foldl (fun options pair => options.insert pair.1 pair.2) options =
      { entries := pairs.reverse ++ options.entries } := by
  induction pairs generalizing options with
  | nil => rfl
  | cons pair rest ih =>
    rw [List.foldl_cons, ih]
    simp [insert]

theorem ofPairs_eq (pairs : List (String × String)) :
    ofPairs pairs = { entries := pairs.reverse } := by
  rw [ofPairs, foldl_insert, List.append_nil]

theorem ofPairs_append (first second : List (String × String)) :
    ofPairs (first ++ second) = (ofPairs first).override (ofPairs second) := by
  simp [ofPairs_eq, override]

theorem get?_override (first second : Options) :
    (first.override second).get? key = (second.get? key).or (first.get? key) :=
  List.lookup_append

/-- The pair that an entry gives sets what the entry gives. -/
theorem get?_ofPairs_singleton {pair : String × String} {entry value : String}
    (h : Gives entry pair.1 pair.2) :
    (ofPairs [pair]).get? key = some value ↔ Gives entry key value := by
  rw [get?, ofPairs_eq, List.reverse_singleton, List.lookup_singleton,
    Option.ite_none_right_eq_some, beq_iff_eq]
  constructor
  · rintro ⟨rfl, hvalue⟩
    rwa [← Option.some.inj hvalue]
  · intro hgives
    obtain ⟨rfl, rfl⟩ := hgives.unique h
    exact ⟨rfl, rfl⟩

end

/-! ### Many entries -/

section
variable {entries : List String} {pairs : List (String × String)} {options : Options}

theorem parsePairs_eq_ok_iff : parsePairs entries = .ok pairs ↔
    List.Forall₂ (fun entry pair => Gives entry pair.1 pair.2) entries pairs := by
  induction entries generalizing pairs with
  | nil => simp [parsePairs, pure, Except.pure, eq_comm]
  | cons entry rest ih =>
    rw [parsePairs, Step.outcome_bind_eq_ok_iff, List.forall₂_cons_left_iff]
    apply exists_congr
    intro pair
    rw [parseEntry_eq_ok_iff, Step.outcome_bind_eq_ok_iff]
    constructor
    · rintro ⟨hgives, more, hmore, ⟨⟩⟩
      exact ⟨more, hgives, ih.mp hmore, rfl⟩
    · rintro ⟨more, hgives, hmore, rfl⟩
      exact ⟨hgives, more, ih.mpr hmore, rfl⟩

theorem parsePairs_append (first second : List String) :
    parsePairs (first ++ second) = do
      let pairs ← parsePairs first
      let more ← parsePairs second
      return pairs ++ more := by
  induction first with
  | nil => simp [parsePairs]
  | cons entry rest ih => simp [parsePairs, ih]

/-- Entries that are all well-formed give as many pairs. -/
theorem exists_pairs (h : ∀ entry ∈ entries, WellFormed entry) :
    ∃ pairs, parsePairs entries = .ok pairs := by
  induction entries with
  | nil => exact ⟨[], rfl⟩
  | cons entry rest ih =>
    obtain ⟨key, value, hgives⟩ := wellFormed_iff.mp (h entry List.mem_cons_self)
    obtain ⟨pairs, hpairs⟩ := ih fun other hother => h other (List.mem_cons_of_mem _ hother)
    refine ⟨(key, value) :: pairs, ?_⟩
    rw [parsePairs, parseEntry_of_gives hgives, hpairs]
    rfl

/-- The first entry that is not well-formed is the fault. -/
theorem parsePairs_of_malformed {earlier later : List String} {entry : String}
    (hearlier : ∀ other ∈ earlier, WellFormed other) (hentry : ¬ WellFormed entry) :
    parsePairs (earlier ++ entry :: later) =
      .error (.configuration "args" (.malformedEntry entry)) := by
  obtain ⟨pairs, hpairs⟩ := exists_pairs hearlier
  rw [parsePairs_append, hpairs, parsePairs, parseEntry_of_malformed hentry]
  rfl

/-- Either all entries are well-formed, or there is a first one that is not. -/
theorem exists_malformed (h : ¬ ∀ entry ∈ entries, WellFormed entry) :
    ∃ earlier entry later, entries = earlier ++ entry :: later ∧
      (∀ other ∈ earlier, WellFormed other) ∧ ¬ WellFormed entry := by
  induction entries with
  | nil => exact absurd (by simp) h
  | cons entry rest ih =>
    by_cases hentry : WellFormed entry
    · obtain ⟨earlier, other, later, rfl, hearlier, hother⟩ := ih fun hrest => h <| by
        simpa [hentry] using hrest
      exact ⟨entry :: earlier, other, later, rfl, by simpa [hentry] using hearlier, hother⟩
    · exact ⟨[], entry, rest, rfl, by simp, hentry⟩

theorem wellFormed_of_pairs (h : parsePairs entries = .ok pairs) :
    ∀ entry ∈ entries, WellFormed entry := by
  by_contra hnot
  obtain ⟨earlier, entry, later, rfl, hearlier, hentry⟩ := exists_malformed hnot
  rw [parsePairs_of_malformed hearlier hentry] at h
  cases h

theorem parse_of_pairs (h : parsePairs entries = .ok pairs) :
    parse entries = .ok (ofPairs pairs) := by
  rw [parse, h]
  rfl

theorem parse_of_malformed {earlier later : List String} {entry : String}
    (hearlier : ∀ other ∈ earlier, WellFormed other) (hentry : ¬ WellFormed entry) :
    parse (earlier ++ entry :: later) =
      .error (.configuration "args" (.malformedEntry entry)) := by
  rw [parse, parsePairs_of_malformed hearlier hentry]
  rfl

/-- What is read comes from the pairs that the entries give. -/
theorem exists_pairs_of_parse (h : parse entries = .ok options) :
    ∃ pairs, parsePairs entries = .ok pairs ∧ options = ofPairs pairs := by
  cases hpairs : parsePairs entries with
  | ok pairs =>
    rw [parse_of_pairs hpairs] at h
    cases h
    exact ⟨pairs, rfl, rfl⟩
  | error fault =>
    rw [parse, hpairs] at h
    cases h

/-- Entries that are read together are read one part after the other. -/
theorem parse_append (first second : List String) :
    parse (first ++ second) = do return (← parse first).override (← parse second) := by
  simp [parse, parsePairs_append, ofPairs_append]

theorem lastGives_cons {entry key value : String} : LastGives (entry :: entries) key value ↔
    LastGives entries key value ∨ Gives entry key value ∧
      ∀ other ∈ entries, ∀ overriding, ¬ Gives other key overriding := by
  constructor
  · rintro ⟨earlier, found, later, hsplit, hgives, hlast⟩
    rcases List.cons_eq_append_iff.mp hsplit with ⟨-, hsame⟩ | ⟨between, -, rfl⟩
    · cases hsame
      exact .inr ⟨hgives, hlast⟩
    · exact .inl ⟨between, found, later, rfl, hgives, hlast⟩
  · rintro (⟨earlier, found, later, rfl, hgives, hlast⟩ | ⟨hgives, hlast⟩)
    · exact ⟨entry :: earlier, found, later, rfl, hgives, hlast⟩
    · exact ⟨[], entry, entries, rfl, hgives, hlast⟩

/-- A key has no value exactly if no entry gives it one. -/
theorem get?_eq_none_iff {key : String}
    (h : List.Forall₂ (fun entry pair => Gives entry pair.1 pair.2) entries pairs) :
    (ofPairs pairs).get? key = none ↔ ∀ entry ∈ entries, ∀ value, ¬ Gives entry key value := by
  induction h with
  | nil => simp [ofPairs_eq, get?]
  | @cons entry pair rest more hgives _ ih =>
    rw [← List.singleton_append, ofPairs_append, get?_override, Option.or_eq_none_iff, ih, and_comm,
      List.forall_mem_cons, Option.eq_none_iff_forall_ne_some]
    simp only [ne_eq, get?_ofPairs_singleton hgives]

/-- A key has the value that the last entry for it gives. -/
theorem get?_eq_some_iff {key value : String}
    (h : List.Forall₂ (fun entry pair => Gives entry pair.1 pair.2) entries pairs) :
    (ofPairs pairs).get? key = some value ↔ LastGives entries key value := by
  induction h with
  | nil => simp [ofPairs_eq, get?, LastGives]
  | @cons entry pair rest more hgives hmore ih =>
    rw [← List.singleton_append, ofPairs_append, get?_override, Option.or_eq_some_iff, ih,
      get?_eq_none_iff hmore, get?_ofPairs_singleton hgives, lastGives_cons]
    exact or_congr_right and_comm

end

theorem message_malformedEntry (entry : String) :
    (Fault.configuration "args" (.malformedEntry entry)).message =
      "args: expected `key=value`, found `" ++ entry ++ "`" := by
  have hhead : "args" ++ ": " ++ "expected `key=value`, found `" =
      "args: expected `key=value`, found `" := by decide
  calc (Fault.configuration "args" (.malformedEntry entry)).message
    _ = "args" ++ ": " ++ ("expected `key=value`, found `" ++ entry ++ "`") := rfl
    _ = "args: expected `key=value`, found `" ++ entry ++ "`" := by
      simp only [← hhead, String.append_assoc]

/-- Entries can be read exactly if all of them are well-formed. Then they are collected in order, so
that a key has the value that the last entry for it gives, and none if there is no such entry.
Otherwise the fault quotes the first entry that is not well-formed, as it is. Of entries that are
read together, the later ones override the earlier ones. -/
theorem entries_read_in_order (entries : List String) :
    ((∃ options, parse entries = .ok options) ↔ ∀ entry ∈ entries, WellFormed entry) ∧
    (∀ options, parse entries = .ok options →
      (∃ pairs, List.Forall₂ (fun entry pair => Gives entry pair.1 pair.2) entries pairs ∧
        options = ofPairs pairs) ∧
      ∀ key, (∀ value, options.get? key = some value ↔ LastGives entries key value) ∧
        (options.get? key = none ↔ ∀ entry ∈ entries, ∀ value, ¬ Gives entry key value)) ∧
    (∀ fault, parse entries = .error fault → ∃ earlier entry later,
      entries = earlier ++ entry :: later ∧ (∀ other ∈ earlier, WellFormed other) ∧
      ¬ WellFormed entry ∧ fault = .configuration "args" (.malformedEntry entry) ∧
      fault.message = "args: expected `key=value`, found `" ++ entry ++ "`") ∧
    (∀ more, parse (entries ++ more) = do return (← parse entries).override (← parse more)) ∧
    ∀ (options later : Options) (key : String),
      (options.override later).get? key = (later.get? key).or (options.get? key) := by
  refine ⟨⟨?_, ?_⟩, ?_, ?_, parse_append entries, fun options later _ =>
    get?_override options later⟩
  · rintro ⟨options, hparse⟩
    obtain ⟨pairs, hpairs, -⟩ := exists_pairs_of_parse hparse
    exact wellFormed_of_pairs hpairs
  · intro hformed
    obtain ⟨pairs, hpairs⟩ := exists_pairs hformed
    exact ⟨ofPairs pairs, parse_of_pairs hpairs⟩
  · intro options hparse
    obtain ⟨pairs, hpairs, rfl⟩ := exists_pairs_of_parse hparse
    have hgives := parsePairs_eq_ok_iff.mp hpairs
    exact ⟨⟨pairs, hgives, rfl⟩, fun key =>
      ⟨fun value => get?_eq_some_iff hgives, get?_eq_none_iff hgives⟩⟩
  · intro fault hparse
    have hnot : ¬ ∀ entry ∈ entries, WellFormed entry := by
      intro hformed
      obtain ⟨pairs, hpairs⟩ := exists_pairs hformed
      rw [parse_of_pairs hpairs] at hparse
      cases hparse
    obtain ⟨earlier, entry, later, rfl, hearlier, hentry⟩ := exists_malformed hnot
    rw [parse_of_malformed hearlier hentry] at hparse
    cases hparse
    exact ⟨earlier, entry, later, rfl, hearlier, hentry, rfl, message_malformedEntry entry⟩

/-- A key that is set twice with different white space around it, a value with an equals sign in it
and one that is empty; and entries of which the second has no key. -/
theorem entries_read_in_order_spaced :
    (∃ options, parse [" a = 1", "b=", "\u00a0a == 2\t"] = .ok options ∧
      LastGives [" a = 1", "b=", "\u00a0a == 2\t"] "a" "= 2" ∧ options.get? "a" = some "= 2" ∧
      options.get? "b" = some "" ∧ options.get? "c" = none) ∧
    ∃ fault, parse ["a=1", " =2", "b"] = .error fault ∧ ¬ WellFormed " =2" ∧
      fault.message = "args: expected `key=value`, found ` =2`" := by
  obtain ⟨-, hread, -⟩ := entries_read_in_order [" a = 1", "b=", "\u00a0a == 2\t"]
  obtain ⟨-, -, hfault, -⟩ := entries_read_in_order ["a=1", " =2", "b"]
  have hparse : parse [" a = 1", "b=", "\u00a0a == 2\t"] =
      .ok { entries := [("a", "= 2"), ("b", ""), ("a", "1")] } := rfl
  have hstop : parse ["a=1", " =2", "b"] =
      .error (.configuration "args" (.malformedEntry " =2")) := rfl
  refine ⟨⟨_, hparse, ?_, rfl, rfl, rfl⟩, _, hstop, ?_, ?_⟩
  · exact (((hread _ hparse).2 "a").1 "= 2").mp rfl
  · obtain ⟨earlier, entry, later, -, -, hentry, hsame, -⟩ := hfault _ hstop
    cases hsame
    exact hentry
  · obtain ⟨earlier, entry, later, -, -, -, hsame, hmessage⟩ := hfault _ hstop
    cases hsame
    exact hmessage

end Polyglot.Options
