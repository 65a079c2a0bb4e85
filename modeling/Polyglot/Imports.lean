/-! # Imports

Packages that Go text can refer to, and sets of them. Any package can be in a set, which is held as
the list of its members in the order of their paths. Paths are compared by code points, as their
bytes would be.
-/

namespace Polyglot

/-- A package, known by its path. -/
@[ext]
structure Package where
  path : String
deriving DecidableEq

namespace Package

def require : Package := ⟨"github.com/stretchr/testify/require"⟩

def math : Package := ⟨"math"⟩

def strconv : Package := ⟨"strconv"⟩

def testing : Package := ⟨"testing"⟩

/-- The packages are in the order of their paths, and none of them is listed twice. -/
abbrev Sorted (packages : List Package) : Prop :=
  packages.Pairwise fun first second => first.path < second.path

/-- Adds a package at its place among others, unless it is there already. -/
def insertSorted (added : Package) : List Package → List Package
  | [] => [added]
  | first :: rest =>
    if added.path < first.path then added :: first :: rest
    else if added = first then first :: rest
    else first :: insertSorted added rest

variable {added package : Package} {packages : List Package}

/-- Of two packages, one has the lesser path. -/
theorem path_lt_of_not_lt (hle : ¬ added.path < package.path) (hne : added ≠ package) :
    package.path < added.path := by
  apply Decidable.byContradiction
  intro hge
  exact hne (Package.ext (String.le_antisymm hge hle))

theorem mem_insertSorted :
    package ∈ insertSorted added packages ↔ package = added ∨ package ∈ packages := by
  induction packages with
  | nil => simp [insertSorted]
  | cons first rest ih =>
    rw [insertSorted]
    split
    · exact List.mem_cons
    · split
      · next _ hsame => simp [hsame]
      · rw [List.mem_cons, ih, List.mem_cons, or_left_comm]

theorem sorted_insertSorted (h : Sorted packages) : Sorted (insertSorted added packages) := by
  induction packages with
  | nil => exact List.pairwise_singleton _ added
  | cons first rest ih =>
    obtain ⟨hfirst, hrest⟩ := List.pairwise_cons.mp h
    rw [insertSorted]
    split
    · next hlt =>
      refine List.pairwise_cons.mpr ⟨?_, h⟩
      intro package hpackage
      rcases List.mem_cons.mp hpackage with rfl | hpackage
      · exact hlt
      · exact String.lt_trans hlt (hfirst package hpackage)
    · next hle =>
      split
      · exact h
      · next hne =>
        refine List.pairwise_cons.mpr ⟨?_, ih hrest⟩
        intro package hpackage
        rcases mem_insertSorted.mp hpackage with rfl | hpackage
        · exact path_lt_of_not_lt hle hne
        · exact hfirst package hpackage

end Package

/-- A set of packages. -/
structure Imports where
  /-- The members, in the order of their paths. -/
  toList : List Package
  sorted : Package.Sorted toList
deriving DecidableEq

namespace Imports

instance : EmptyCollection Imports :=
  ⟨{ toList := [], sorted := .nil }⟩

def contains (imports : Imports) (package : Package) : Bool :=
  imports.toList.contains package

def insert (imports : Imports) (added : Package) : Imports where
  toList := Package.insertSorted added imports.toList
  sorted := Package.sorted_insertSorted imports.sorted

theorem mem_toList {imports : Imports} {package : Package} :
    package ∈ imports.toList ↔ imports.contains package = true :=
  List.contains_iff_mem.symm

@[simp]
theorem contains_empty (package : Package) : ({} : Imports).contains package = false := rfl

@[simp]
theorem contains_insert (imports : Imports) (added package : Package) :
    (imports.insert added).contains package =
      (decide (package = added) || imports.contains package) := by
  rw [Bool.eq_iff_iff, Bool.or_eq_true, decide_eq_true_iff, ← mem_toList, ← mem_toList]
  exact Package.mem_insertSorted

end Imports

end Polyglot
