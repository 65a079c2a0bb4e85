/-! # Wire trees

The shape in which programs and facts are stored and exchanged: trees of scalars, lists and
records. Reading is by field name, so the order of fields in a record does not matter; a part of a
tree comes with the evidence that it is smaller, which lets readers recurse.
-/

namespace Polyglot

/-- A tree of stored data. -/
inductive Wire where
  | null
  | bool (b : Bool)
  | int (n : Int)
  | text (content : String)
  | list (items : List Wire)
  | record (fields : List (String × Wire))
deriving Inhabited

namespace Wire

/-- A record with one field, whose name says what the content is. -/
def tagged (tag : String) (content : Wire) : Wire :=
  record [(tag, content)]

/-- `null` stands for an absent value. -/
def optional (content : Option Wire) : Wire :=
  content.getD null

/-! ### Scalars -/

def bool? : Wire → Option Bool
  | bool b => some b
  | _ => none

def int? : Wire → Option Int
  | int n => some n
  | _ => none

def text? : Wire → Option String
  | text content => some content
  | _ => none

/-- A natural number below a bound. -/
def natBelow? (bound : Nat) (wire : Wire) : Option Nat := do
  let n ← wire.int?
  if 0 ≤ n ∧ n < bound then some n.toNat else none

def int64? (wire : Wire) : Option Int64 := do
  let n ← wire.int?
  if Int64.minValue.toInt ≤ n ∧ n ≤ Int64.maxValue.toInt then some (Int64.ofInt n) else none

def uint64? (wire : Wire) : Option UInt64 :=
  (wire.natBelow? UInt64.size).map Nat.toUInt64

def uint32? (wire : Wire) : Option UInt32 :=
  (wire.natBelow? UInt32.size).map Nat.toUInt32

/-! ### Parts -/

/-- A field of a record. -/
def get? : Wire → String → Option Wire
  | record fields, name => fields.lookup name
  | _, _ => none

/-- A field of a record that may be missing or `null`. -/
def getOptional? (wire : Wire) (name : String) : Option Wire :=
  match wire.get? name with
  | none => none
  | some null => none
  | some content => some content

def list? : Wire → Option (List Wire)
  | list items => some items
  | _ => none

/-- The tag and the content of a record with one field. -/
def tagged? : Wire → Option (String × Wire)
  | record [(tag, content)] => some (tag, content)
  | _ => none

/-- Reads every item of a list. -/
def listOf? {α : Type} (read : Wire → Option α) (wire : Wire) : Option (List α) := do
  (← wire.list?).mapM read

/-! ### Smaller parts -/

theorem sizeOf_lt_of_lookup {name : String} {content : Wire} :
    {fields : List (String × Wire)} → fields.lookup name = some content →
      sizeOf content < sizeOf fields
  | [], h => by simp at h
  | (key, first) :: rest, h => by
    rw [List.lookup_cons] at h
    split at h
    · cases h
      simp
      omega
    · have := sizeOf_lt_of_lookup h
      simp
      omega

theorem sizeOf_lt_of_get? {wire : Wire} {name : String} {content : Wire}
    (h : wire.get? name = some content) : sizeOf content < sizeOf wire := by
  cases wire with
  | record fields =>
    have := sizeOf_lt_of_lookup h
    simp
    omega
  | _ => simp [get?] at h

theorem sizeOf_lt_of_tagged? {wire : Wire} {tag : String} {content : Wire}
    (h : wire.tagged? = some (tag, content)) : sizeOf content < sizeOf wire := by
  unfold tagged? at h
  split at h
  · cases h
    simp
    omega
  · simp at h

theorem sizeOf_lt_of_mem_list? {wire : Wire} {items : List Wire} {item : Wire}
    (h : wire.list? = some items) (mem : item ∈ items) : sizeOf item < sizeOf wire := by
  cases wire with
  | list _ =>
    cases h
    have := List.sizeOf_lt_of_mem mem
    simp
    omega
  | _ => simp [list?] at h

/-- A part of a tree, smaller than the tree. -/
abbrev Part (wire : Wire) := { part : Wire // sizeOf part < sizeOf wire }

/-- A field of a record, as a part. -/
def field? (wire : Wire) (name : String) : Option wire.Part :=
  (wire.get? name).attach.map fun ⟨content, h⟩ => ⟨content, sizeOf_lt_of_get? h⟩

/-- The tag of a record with one field and its content, as a part. -/
def variant? (wire : Wire) : Option (String × wire.Part) :=
  wire.tagged?.attach.map fun ⟨(tag, content), h⟩ => (tag, ⟨content, sizeOf_lt_of_tagged? h⟩)

/-- The items of a list, as parts. -/
def items? (wire : Wire) : Option (List wire.Part) :=
  wire.list?.attach.map fun ⟨items, h⟩ =>
    items.attach.map fun ⟨item, mem⟩ => ⟨item, sizeOf_lt_of_mem_list? h mem⟩

end Wire

end Polyglot
