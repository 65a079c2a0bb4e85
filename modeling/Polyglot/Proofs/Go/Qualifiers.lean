import Mathlib.Data.List.DropRight
import Polyglot.Proofs.Go.Needs

/-! # Packages that a text refers to

A reader of Go text that is not concerned with how the text came about: what stands in literals is
left out, and the rest is cut into operands. A text refers to a package if one of its operands
starts with the name of the package and a point. Any name can be that of a package, so it is asked
only which of the packages that files are spelled with a text refers to.

Texts that are put together are read one by one, as long as no operand goes on from one of them to
the next.
-/

namespace Polyglot

namespace Package

/-- The name by which code refers to the package: the last part of its path. -/
def qualifier (package : Package) : String :=
  String.ofList (package.path.toList.rtakeWhile (· ≠ '/'))

/-- The packages that files are spelled with. -/
def known : List Package :=
  [require, math, strconv, testing]

@[simp] theorem qualifier_require : require.qualifier = "require" := by decide

@[simp] theorem qualifier_math : math.qualifier = "math" := by decide

@[simp] theorem qualifier_strconv : strconv.qualifier = "strconv" := by decide

@[simp] theorem qualifier_testing : testing.qualifier = "testing" := by decide

end Package

namespace Go

/-! ### Reading -/

/-- Where a character stands: in code, in a literal, or after a backslash in a literal. -/
inductive Place where
  | code
  | literal
  | escaped
deriving DecidableEq

namespace Place

/-- The place after a character. -/
def next : Place → Char → Place
  | code, c => if c = '"' then literal else code
  | literal, c => if c = '"' then code else if c = '\\' then escaped else literal
  | escaped, _ => literal

/-- The place after a text. -/
def after (place : Place) (text : List Char) : Place :=
  text.foldl next place

/-- The text without what stands in literals; of each of these, the first quote is left. -/
def read : Place → List Char → List Char
  | _, [] => []
  | code, c :: rest => c :: read (next code c) rest
  | place, c :: rest => read (place.next c) rest

theorem after_append (place : Place) (first second : List Char) :
    place.after (first ++ second) = (place.after first).after second :=
  List.foldl_append

theorem read_append (place : Place) (first second : List Char) :
    place.read (first ++ second) = place.read first ++ (place.after first).read second := by
  induction first generalizing place with
  | nil => rfl
  | cons c rest ih => cases place <;> simp [read, after, ih]

/-- Without quotes, a text is code throughout. -/
theorem of_no_quote {text : List Char} (h : '"' ∉ text) :
    code.after text = code ∧ code.read text = text := by
  induction text with
  | nil => exact ⟨rfl, rfl⟩
  | cons c rest ih =>
    rw [List.mem_cons, not_or] at h
    have hnext : next code c = code := if_neg (Ne.symm h.1)
    obtain ⟨hafter, hread⟩ := ih h.2
    exact ⟨by simpa [after, hnext] using hafter, by rw [read, hnext, hread]⟩

end Place

/-- A character of a name. -/
def isWord (c : Char) : Bool :=
  c.isAlphanum || c = '_' || 128 ≤ c.toNat

/-- A character of a name or number, or the point between two of them. -/
def isOperand (c : Char) : Bool :=
  isWord c || c = '.'

/-- Whether code refers to a package. -/
def codeRefersTo (code : List Char) (package : Package) : Bool :=
  (code.splitOnP fun c => !isOperand c).any fun operand =>
    (package.qualifier.toList ++ ['.']).isPrefixOf operand

/-- Whether a text refers to a package. -/
def refersTo (text : String) (package : Package) : Bool :=
  codeRefersTo (Place.code.read text.toList) package

/-- Operands do not go beyond a character that is part of none. -/
theorem codeRefersTo_append_cons {c : Char} (hc : isOperand c = false) (first second : List Char)
    (package : Package) : codeRefersTo (first ++ c :: second) package =
      (codeRefersTo first package || codeRefersTo second package) := by
  rw [codeRefersTo, List.splitOnP_append_cons _ _ (by simp [hc]), List.any_append]
  rfl

theorem mem_of_mem_splitOnP {α : Type} {p : α → Bool} {list piece : List α} {a : α}
    (hpiece : piece ∈ list.splitOnP p) (ha : a ∈ piece) : a ∈ list := by
  induction list generalizing piece with
  | nil => simp_all
  | cons b rest ih =>
    rw [List.splitOnP_cons_eq_if_modifyHead] at hpiece
    split at hpiece
    · rcases List.mem_cons.mp hpiece with rfl | hpiece
      · simp at ha
      · exact List.mem_cons_of_mem b (ih hpiece ha)
    · cases hsplit : rest.splitOnP p with
      | nil => simp [hsplit] at hpiece
      | cons first others =>
        rw [hsplit, List.modifyHead_cons, List.mem_cons] at hpiece
        rcases hpiece with rfl | hpiece
        · rcases List.mem_cons.mp ha with rfl | ha
          · exact List.mem_cons_self
          · exact List.mem_cons_of_mem b (ih (by simp [hsplit]) ha)
        · exact List.mem_cons_of_mem b (ih (by simp [hsplit, hpiece]) ha)

/-- Code that lacks a character of the qualifier does not refer to the package. -/
theorem codeRefersTo_of_not_mem {code : List Char} {package : Package} {c : Char}
    (hc : c ∈ package.qualifier.toList ++ ['.']) (hcode : c ∉ code) :
    codeRefersTo code package = false := by
  rw [codeRefersTo, List.any_eq_false]
  intro operand hoperand hprefix
  have hmem := (List.isPrefixOf_iff_prefix.mp hprefix).subset hc
  exact hcode (mem_of_mem_splitOnP hoperand hmem)

theorem codeRefersTo_nil (package : Package) : codeRefersTo [] package = false :=
  codeRefersTo_of_not_mem (List.mem_append_right _ List.mem_cons_self) List.not_mem_nil

/-! ### Texts put together -/

/-- The text ends outside of literals, and of the packages that files are spelled with it refers to
those with the given property. -/
structure Reads (packages : Package → Prop) (text : String) : Prop where
  closed : Place.code.after text.toList = .code
  refers : ∀ package ∈ Package.known, refersTo text package = true ↔ packages package

/-- No operand goes on beyond the beginning of the text. -/
def Opens (text : String) : Prop :=
  ∃ c rest, text.toList = c :: rest ∧ isOperand c = false

/-- No operand goes on beyond the end of the text. -/
def Closes (text : String) : Prop :=
  ∃ front c, Place.code.read text.toList = front ++ [c] ∧ isOperand c = false

namespace Reads

variable {packages others : Package → Prop} {left right : String}

theorem congr (h : Reads packages left) (hsame : ∀ package, packages package ↔ others package) :
    Reads others left where
  closed := h.closed
  refers package hknown := (h.refers package hknown).trans (hsame package)

theorem append_of_refers (hleft : Reads packages left) (hright : Reads others right)
    (h : ∀ package, refersTo (left ++ right) package =
      (refersTo left package || refersTo right package)) :
    Reads (fun package => packages package ∨ others package) (left ++ right) where
  closed := by rw [String.toList_append, Place.after_append, hleft.closed, hright.closed]
  refers package hknown := by
    rw [h, Bool.or_eq_true, hleft.refers package hknown, hright.refers package hknown]

theorem read_append (h : Reads packages left) : Place.code.read (left ++ right).toList =
    Place.code.read left.toList ++ Place.code.read right.toList := by
  rw [String.toList_append, Place.read_append, h.closed]

theorem closes_append (hleft : Reads packages left) (hright : Closes right) :
    Closes (left ++ right) := by
  obtain ⟨front, c, hfront, hc⟩ := hright
  refine ⟨Place.code.read left.toList ++ front, c, ?_, hc⟩
  rw [hleft.read_append, hfront, List.append_assoc]

/-- A text that is followed by the beginning of a new operand. -/
theorem append (hleft : Reads packages left) (hright : Reads others right) (hopens : Opens right) :
    Reads (fun package => packages package ∨ others package) (left ++ right) := by
  refine hleft.append_of_refers hright fun package => ?_
  obtain ⟨c, rest, hrest, hc⟩ := hopens
  have hread : Place.code.read right.toList = c :: (Place.next .code c).read rest := by
    rw [hrest, Place.read]
  have hsplit := codeRefersTo_append_cons hc [] ((Place.next .code c).read rest) package
  rw [codeRefersTo_nil, Bool.false_or, List.nil_append] at hsplit
  rw [refersTo, refersTo, refersTo, hleft.read_append, hread, codeRefersTo_append_cons hc, hsplit]

/-- A text that ends all of its operands. -/
theorem then_append (hleft : Reads packages left) (hright : Reads others right)
    (hcloses : Closes left) :
    Reads (fun package => packages package ∨ others package) (left ++ right) := by
  refine hleft.append_of_refers hright fun package => ?_
  obtain ⟨front, c, hfront, hc⟩ := hcloses
  have hsplit := codeRefersTo_append_cons hc front [] package
  rw [codeRefersTo_nil, Bool.or_false] at hsplit
  rw [refersTo, refersTo, refersTo, hleft.read_append, hfront, List.append_assoc,
    List.singleton_append, codeRefersTo_append_cons hc, hsplit]

end Reads

/-! ### Texts that refer to nothing -/

/-- The text refers to none of the packages that files are spelled with. -/
abbrev Bare (text : String) : Prop :=
  Reads (NeededBy []) text

theorem bare_of_lacking {text : String} (hquote : '"' ∉ text.toList)
    (h : ∀ package ∈ Package.known,
      ∃ c ∈ package.qualifier.toList ++ ['.'], c ∉ text.toList) : Bare text where
  closed := (Place.of_no_quote hquote).1
  refers package hknown := by
    obtain ⟨c, hc, hlacks⟩ := h package hknown
    rw [refersTo, (Place.of_no_quote hquote).2, codeRefersTo_of_not_mem hc hlacks]
    simp

/-- Without a point there is no reference. -/
theorem bare_of_no_point {text : String} (hquote : '"' ∉ text.toList) (hpoint : '.' ∉ text.toList) :
    Bare text :=
  bare_of_lacking hquote fun package _ => ⟨'.', by simp, hpoint⟩

/-- Numbers refer to nothing. -/
theorem bare_of_number {text : String}
    (h : ∀ c ∈ text.toList, c.isDigit = true ∨ c = '.' ∨ c = '-') : Bare text := by
  have hlacks : ∀ c : Char, c.isDigit = false → c ≠ '.' → c ≠ '-' → c ∉ text.toList := by
    intro c hdigit hpoint hminus hmem
    rcases h c hmem with hc | hc | hc
    · rw [hdigit] at hc
      cases hc
    · exact hpoint hc
    · exact hminus hc
  apply bare_of_lacking (hlacks '"' (by decide) (by decide) (by decide))
  intro package hknown
  have hletter : (package.qualifier.toList ++ ['.']).any
      (fun c => !c.isDigit && c != '.' && c != '-') = true := by
    revert package
    decide
  obtain ⟨c, hc, hother⟩ := List.any_eq_true.mp hletter
  simp only [Bool.and_eq_true, Bool.not_eq_true', bne_iff_ne] at hother
  exact ⟨c, hc, hlacks c hother.1.1 hother.1.2 hother.2⟩

/-- A name without points, blanks and other signs. -/
def Word (name : String) : Prop :=
  ∀ c ∈ name.toList, isWord c = true

instance (name : String) : Decidable (Word name) :=
  decidable_of_iff (name.toList.all isWord = true) List.all_eq_true

theorem Word.not_mem {name : String} (h : Word name) {c : Char} (hc : isWord c = false) :
    c ∉ name.toList := by
  intro hmem
  rw [h c hmem] at hc
  cases hc

theorem Word.bare {name : String} (h : Word name) : Bare name :=
  bare_of_no_point (h.not_mem (by decide)) (h.not_mem (by decide))

/-- A member of a variable is read as one operand. -/
theorem Word.bare_member {name : String} (h : Word name) : Bare ("model." ++ name) := by
  have hmodel : ∀ c ∈ "model.".toList, isOperand c = true := List.all_eq_true.mp (by decide)
  have hchars : ∀ c ∈ ("model." ++ name).toList, isOperand c = true := by
    rw [String.toList_append]
    intro c hc
    rcases List.mem_append.mp hc with hc | hc
    · exact hmodel c hc
    · simp [isOperand, h c hc]
  have hquote : '"' ∉ ("model." ++ name).toList := by
    intro hmem
    exact absurd (hchars '"' hmem) (by decide)
  refine ⟨(Place.of_no_quote hquote).1, fun package hknown => ?_⟩
  rw [refersTo, (Place.of_no_quote hquote).2, codeRefersTo,
    List.splitOnP_eq_singleton (by simpa using hchars)]
  simp only [Package.known, List.mem_cons, List.not_mem_nil, or_false] at hknown
  rcases hknown with rfl | rfl | rfl | rfl <;> simp

/-! ### Glue -/

/-- A fixed text that refers to nothing, and across which no operand goes. -/
structure Glue (text : String) : Prop where
  bare : Bare text
  opens : Opens text
  closes : Closes text

theorem opens_of_head {text : String} {c : Char} (h : text.toList.head? = some c)
    (hc : isOperand c = false) : Opens text := by
  obtain ⟨rest, hrest⟩ := List.head?_eq_some_iff.mp h
  exact ⟨c, rest, hrest, hc⟩

theorem closes_of_last {text : String} {c : Char}
    (h : (Place.code.read text.toList).getLast? = some c) (hc : isOperand c = false) :
    Closes text := by
  obtain ⟨front, hfront⟩ := List.getLast?_eq_some_iff.mp h
  exact ⟨front, c, hfront, hc⟩

theorem glue_of_ends {text : String} {first last : Char} (hquote : '"' ∉ text.toList)
    (hpoint : '.' ∉ text.toList) (hfirst : text.toList.head? = some first)
    (hlast : text.toList.getLast? = some last)
    (hends : isOperand first = false ∧ isOperand last = false) : Glue text where
  bare := bare_of_no_point hquote hpoint
  opens := opens_of_head hfirst hends.1
  closes := closes_of_last (by rwa [(Place.of_no_quote hquote).2]) hends.2

namespace Reads

variable {packages others : Package → Prop} {left right : String}

theorem lead (hbare : Bare left) (hcloses : Closes left) (hright : Reads packages right) :
    Reads packages (left ++ right) :=
  (hbare.then_append hright hcloses).congr fun package => by simp

theorem close (hleft : Reads packages left) (hright : Glue right) :
    Reads packages (left ++ right) :=
  (hleft.append hright.bare hright.opens).congr fun package => by simp

theorem join {glue : String} (hleft : Reads packages left) (hglue : Glue glue)
    (hright : Reads others right) :
    Reads (fun package => packages package ∨ others package) (left ++ glue ++ right) :=
  (hleft.close hglue).then_append hright (hleft.closes_append hglue.closes)

end Reads

end Go

end Polyglot
