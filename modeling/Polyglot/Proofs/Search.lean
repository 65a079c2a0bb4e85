import Polyglot.Proofs.Parts

/-! # Searching values

Whether a value depends on a method can be found out without recursion. Values wait to be looked
at, and each round takes up the one that came last: a reference settles the question, and any other
value makes room for its direct parts. No part is taken up twice, so that the search ends at the
latest one round after the last part, and its answer is whether the value holds a reference.
-/

namespace Polyglot.Value

open Relation

/-! ### Direct parts -/

/-- The value has another one as an element, as a key or a value of an entry, as the field of a
member, as what an element is taken from or its index or key, as an operand, or as what is
converted. -/
inductive HasPart : Value → Value → Prop where
  | element {type : Ty} {elements : List Value} {part : Value} (h : part ∈ elements) :
    HasPart (array type elements) part
  | entryKey {key value : Ty} {entries : List (Value × Value)} {entry : Value × Value}
      (h : entry ∈ entries) : HasPart (map key value entries) entry.1
  | entryValue {key value : Ty} {entries : List (Value × Value)} {entry : Value × Value}
      (h : entry ∈ entries) : HasPart (map key value entries) entry.2
  | receiverMember (field : Value) : HasPart (ownField field) field
  | namedMember (model : String) (field : Value) : HasPart (modelField model field) field
  | arraySource (source index : Value) : HasPart (arrayElement source index) source
  | arrayIndex (source index : Value) : HasPart (arrayElement source index) index
  | mapSource (source key : Value) : HasPart (mapElement source key) source
  | mapKey (source key : Value) : HasPart (mapElement source key) key
  | leftOperand (left : Value) (op : Operator) (right : Value) :
    HasPart (combined left op right) left
  | rightOperand (left : Value) (op : Operator) (right : Value) :
    HasPart (combined left op right) right
  | converted (inner : Value) : HasPart (intToText inner) inner

theorem mem_children_iff {value part : Value} : part ∈ value.children ↔ value.HasPart part := by
  constructor
  · intro h
    cases value with
    | array type elements => exact .element h
    | map key value entries =>
      obtain ⟨entry, hentry, hpart⟩ := List.mem_flatMap.mp h
      obtain rfl | rfl : part = entry.1 ∨ part = entry.2 := by simpa using hpart
      · exact .entryKey hentry
      · exact .entryValue hentry
    | ownField field =>
      obtain rfl := List.mem_singleton.mp h
      exact .receiverMember part
    | modelField model field =>
      obtain rfl := List.mem_singleton.mp h
      exact .namedMember model part
    | arrayElement source index =>
      obtain rfl | rfl : part = source ∨ part = index := by simpa [children] using h
      · exact .arraySource part index
      · exact .arrayIndex source part
    | mapElement source key =>
      obtain rfl | rfl : part = source ∨ part = key := by simpa [children] using h
      · exact .mapSource part key
      · exact .mapKey source part
    | combined left op right =>
      obtain rfl | rfl : part = left ∨ part = right := by simpa [children] using h
      · exact .leftOperand part op right
      · exact .rightOperand left op part
    | intToText inner =>
      obtain rfl := List.mem_singleton.mp h
      exact .converted part
    | null | text | int | float | bool | binding => cases h
  · intro h
    cases h with
    | element h => exact h
    | entryKey h => exact List.mem_flatMap.mpr ⟨_, h, List.mem_cons_self⟩
    | entryValue h => exact List.mem_flatMap.mpr ⟨_, h, by simp⟩
    | _ => simp [children]

/-- What a value holds is reached from part to part. -/
theorem holds_iff_reaches {value part : Value} :
    value.Holds part ↔ ReflTransGen HasPart value part := by
  have hparts : (fun outer inner => inner ∈ children outer) = HasPart := by
    funext outer inner
    exact propext mem_children_iff
  rw [Holds, hparts]

/-! ### Rounds -/

/-- One round, which takes up the value that came last. It gives the answer, or leaves the values
that are to be looked at from then on. -/
def takeUpLast (pending : List Value) : Bool ⊕ List Value :=
  match pending.getLast? with
  | none => .inl false
  | some value =>
    if value.kind.isReference then .inl true else .inr (pending.dropLast ++ value.children)

/-- The answer of the search, if the given number of rounds is enough. -/
def answerWithin : Nat → List Value → Option Bool
  | 0, _ => none
  | rounds + 1, pending =>
    match takeUpLast pending with
    | .inl answer => some answer
    | .inr later => answerWithin rounds later

theorem takeUpLast_concat (earlier : List Value) (value : Value) :
    takeUpLast (earlier ++ [value]) =
      if value.kind.isReference then .inl true else .inr (earlier ++ value.children) := by
  simp [takeUpLast]

/-- The number of values that stand in the pending ones. -/
def partCount (pending : List Value) : Nat :=
  (pending.flatMap preorder).length

theorem partCount_append (first second : List Value) :
    partCount (first ++ second) = partCount first + partCount second := by
  simp [partCount]

theorem partCount_singleton (value : Value) :
    partCount [value] = partCount value.children + 1 := by
  simp [partCount, preorder_eq value]

/-- An answer says whether any pending value depends on a method. -/
theorem takeUpLast_answer {pending : List Value} {answer : Bool}
    (h : takeUpLast pending = .inl answer) : answer = pending.any isMethodDependent := by
  rcases List.eq_nil_or_concat pending with rfl | ⟨earlier, value, rfl⟩
  · cases h
    rfl
  · rw [List.concat_eq_append] at h ⊢
    rw [takeUpLast_concat] at h
    by_cases hreference : value.kind.isReference = true
    · rw [if_pos hreference] at h
      cases h
      simp [isMethodDependent_eq value, hreference]
    · rw [if_neg hreference] at h
      cases h

/-- A round without an answer does not change what the answer will be, and leaves one part less. -/
theorem takeUpLast_later {pending later : List Value} (h : takeUpLast pending = .inr later) :
    later.any isMethodDependent = pending.any isMethodDependent ∧
      partCount later + 1 = partCount pending := by
  rcases List.eq_nil_or_concat pending with rfl | ⟨earlier, value, rfl⟩
  · cases h
  · rw [List.concat_eq_append] at h ⊢
    rw [takeUpLast_concat] at h
    by_cases hreference : value.kind.isReference = true
    · rw [if_pos hreference] at h
      cases h
    · rw [if_neg hreference] at h
      cases h
      constructor
      · simp [isMethodDependent_eq value, hreference]
      · rw [partCount_append, partCount_append, partCount_singleton]
        omega

/-- With more rounds than parts, the search has an answer, and it is the right one. -/
theorem answerWithin_eq {rounds : Nat} {pending : List Value} (h : partCount pending < rounds) :
    answerWithin rounds pending = some (pending.any isMethodDependent) := by
  induction rounds generalizing pending with
  | zero => omega
  | succ rounds ih =>
    rw [answerWithin]
    cases hround : takeUpLast pending with
    | inl answer => rw [takeUpLast_answer hround]
    | inr later =>
      obtain ⟨hsame, hless⟩ := takeUpLast_later hround
      rw [← hsame]
      apply ih
      omega

/-- The search through a value ends, at the latest in the round after the last part. It finds out
whether a reference can be reached from the value, which is whether the value depends on a method;
a value that is no reference itself does so exactly if one of its direct parts does. -/
theorem search_finds_reference (value : Value) :
    (∀ rounds, value.preorder.length < rounds →
      answerWithin rounds [value] = some value.isMethodDependent) ∧
    (value.isMethodDependent = true ↔ ∃ part, ReflTransGen HasPart value part ∧
      part.kind ∈ [Kind.binding, .ownField, .modelField, .arrayElement, .mapElement]) ∧
    (value.kind.isReference = false →
      value.isMethodDependent = value.children.any isMethodDependent) := by
  refine ⟨?_, ?_, ?_⟩
  · intro rounds hrounds
    rw [answerWithin_eq (by simpa [partCount] using hrounds)]
    simp
  · rw [isMethodDependent_iff]
    apply exists_congr
    intro part
    rw [holds_iff_reaches]
    apply and_congr_right
    intro _
    cases part.kind <;> simp [Kind.isReference]
  · intro hkind
    rw [isMethodDependent_eq, hkind, Bool.false_or]

/-- A map with a variable in an operand of a key, among values that hold nothing but data. -/
def buried : Value :=
  map (.primitive .string) (.array (.primitive .int))
    [(text "first", array (.primitive .int) [int 1, int 2]),
      (intToText (combined (int 3) .add (binding "n")), array (.primitive .int) [])]

theorem search_finds_reference_buried :
    buried.preorder.length < 11 ∧ answerWithin 11 [buried] = some true ∧
      answerWithin 4 [buried] = none ∧ buried.kind.isReference = false ∧
      buried.children.any isMethodDependent = true := by
  obtain ⟨hends, hreaches, hparts⟩ := search_finds_reference buried
  have hlength : buried.preorder.length < 11 := by
    simp [buried, preorder_eq, children]
  have hdepends : buried.isMethodDependent = true := by
    refine hreaches.mpr ⟨binding "n", ?_, by simp [kind]⟩
    have hkey : HasPart buried (intToText (combined (int 3) .add (binding "n"))) :=
      .entryKey (List.mem_cons_of_mem _ List.mem_cons_self)
    exact .head hkey (.head (.converted _) (.single (.rightOperand _ _ _)))
  refine ⟨hlength, ?_, rfl, rfl, ?_⟩
  · rw [hends 11 hlength, hdepends]
  · rw [← hparts rfl, hdepends]

end Polyglot.Value
