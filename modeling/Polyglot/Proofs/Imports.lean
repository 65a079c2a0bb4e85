import Mathlib.Data.List.Sort
import Polyglot.Imports

/-! # Sets of packages

A set of packages is known by its members: there is one list of them in the order of their paths,
and the list of a smaller set is that of a larger one with some packages left out.
-/

namespace Polyglot

namespace Imports

variable {first second : Imports}

instance : Std.Antisymm fun first second : Package => first.path < second.path :=
  ⟨fun _ _ hlt hgt => absurd hgt (String.lt_asymm hlt)⟩

instance : Std.Irrefl fun first second : Package => first.path < second.path :=
  ⟨fun package => String.lt_irrefl package.path⟩

theorem toList_inj : first.toList = second.toList ↔ first = second := by
  constructor
  · intro h
    cases first
    cases second
    cases h
    rfl
  · rintro rfl
    rfl

@[ext]
theorem ext_contains (h : ∀ package, first.contains package = second.contains package) :
    first = second := by
  apply toList_inj.mp
  apply first.sorted.eq_of_mem_iff second.sorted
  intro package
  rw [mem_toList, mem_toList, h]

/-- The members of a smaller set are listed in the same order. -/
theorem sublist_toList
    (h : ∀ package, first.contains package = true → second.contains package = true) :
    first.toList.Sublist second.toList := by
  have hsubset : first.toList ⊆ second.toList := by
    intro package hpackage
    exact mem_toList.mpr (h package (mem_toList.mp hpackage))
  exact List.sublist_of_subperm_of_pairwise (List.subperm_of_subset first.sorted.nodup hsubset)
    first.sorted second.sorted

/-! ### Unions -/

/-- The packages in either set. -/
def union (first second : Imports) : Imports :=
  second.toList.foldl insert first

theorem contains_foldl_insert (packages : List Package) (imports : Imports) (package : Package) :
    (packages.foldl insert imports).contains package =
      (imports.contains package || packages.contains package) := by
  induction packages generalizing imports with
  | nil => simp
  | cons added rest ih =>
    rw [List.foldl_cons, ih, contains_insert, List.contains_cons, Bool.or_comm (decide _),
      Bool.or_assoc]
    rfl

@[simp] theorem contains_union (first second : Imports) (package : Package) :
    (first.union second).contains package =
      (first.contains package || second.contains package) :=
  contains_foldl_insert second.toList first package

@[simp] theorem union_empty (imports : Imports) : imports.union {} = imports := by
  ext package
  simp

@[simp] theorem union_self (imports : Imports) : imports.union imports = imports := by
  ext package
  simp

theorem union_assoc (first second third : Imports) :
    (first.union second).union third = first.union (second.union third) := by
  ext package
  simp [Bool.or_assoc]

theorem union_eq_left_iff {first second : Imports} :
    first.union second = first ↔
      ∀ package, second.contains package = true → first.contains package = true := by
  constructor
  · intro h package hsecond
    rw [← h, contains_union, hsecond, Bool.or_true]
  · intro h
    ext package
    rw [contains_union]
    cases hsecond : second.contains package with
    | false => rw [Bool.or_false]
    | true => rw [h package hsecond, Bool.or_true]

/-- What is added to a set that others were added to before. -/
theorem union_eq_left_iff_union {first second third : Imports} (h : first.union second = first) :
    first.union third = first ↔ ∀ package, (second.union third).contains package = true →
      first.contains package = true := by
  have hsecond := union_eq_left_iff.mp h
  rw [union_eq_left_iff]
  constructor
  · intro hthird package hunion
    rw [contains_union, Bool.or_eq_true] at hunion
    rcases hunion with hmem | hmem
    · exact hsecond package hmem
    · exact hthird package hmem
  · intro hunion package hthird
    apply hunion package
    rw [contains_union, hthird, Bool.or_true]

end Imports

end Polyglot
