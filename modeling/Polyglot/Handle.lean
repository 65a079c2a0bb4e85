import Polyglot.Decimal.Integer

/-! # Block handles

Blocks of statements and of text lines live in tables; a handle is a position in such a table.
A handle means something only to the table that issued it.
-/

namespace Polyglot

/-- A position in a table of blocks. Positions are 32 bits wide. -/
structure Handle where
  raw : UInt32
deriving DecidableEq

namespace Handle

/-- The top-level block of a document. -/
def root : Handle := ⟨0⟩

def index (handle : Handle) : Nat :=
  handle.raw.toNat

/-- The handle of a block added to a table of the given size; only the low 32 bits count. -/
def next (size : Nat) : Handle :=
  ⟨size.toUInt32⟩

def display (handle : Handle) : String :=
  "#" ++ Decimal.natText handle.index

theorem index_inj {first second : Handle} (h : first.index = second.index) : first = second := by
  cases first
  cases second
  simpa [index, UInt32.toNat_inj] using h

/-- Handles are ordered by position. -/
instance : Ord Handle where
  compare a b := compare a.index b.index

/-- The number of handles. -/
def count : Nat := UInt32.size

theorem index_next {size : Nat} (h : size < count) : (next size).index = size := by
  change size % count = size
  exact Nat.mod_eq_of_lt h

theorem index_next_le (size : Nat) : (next size).index ≤ size :=
  Nat.mod_le size count

end Handle

end Polyglot
