import Polyglot.Proofs.Document.Settling
import Polyglot.Proofs.TypeScript.Drawing

/-! # Where members go

The members of a file after a script: which block each model sets aside and which methods wait. A
method goes to the block of the last model of its name, and to no other one.
-/

namespace Polyglot.TypeScript

open Script Style

/-- The block that a call of the script sets aside. -/
def houses (script : List Order) : Order × Nat → List (String × Handle)
  | (.model name _, index) => [(name, style.place script (.own index))]
  | _ => []

/-- The method that waits after a call of the script. -/
def awaits (script : List Order) : Order × Nat → List Member
  | (.method owner name _ _ _, index) =>
    [{ model := owner, method := name, block := style.place script (.own index) }]
  | _ => []

variable {script past rest : List Order} {order : Order} {start index : Nat}

theorem membersAfter_eq : membersAfter script past =
    { homes := (past.zipIdx.flatMap (houses script)).reverse
      waiting := past.zipIdx.flatMap (awaits script) } := by
  induction past using List.reverseRecOn with
  | nil => rfl
  | append_singleton past order ih =>
    rw [membersAfter_concat, ih]
    cases order <;>
      simp [noted, houses, awaits, List.zipIdx_append, Members.register, Members.defer]

theorem waiting_eq (script : List Order) :
    (membersAfter script script).waiting = script.zipIdx.flatMap (awaits script) := by
  rw [membersAfter_eq]

/-! ### Homes -/

theorem houses_of_lookup {model : String} {handle : Handle}
    (h : ((rest.zipIdx start).flatMap (houses script)).reverse.lookup model = some handle) :
    ∃ index fields, start ≤ index ∧ rest[index - start]? = some (.model model fields) ∧
      handle = style.place script (.own index) := by
  have hmem : (model, handle) ∈ (rest.zipIdx start).flatMap (houses script) := by
    obtain ⟨first, second, heq, -⟩ := List.lookup_eq_some_iff.mp h
    rw [← List.mem_reverse, heq]
    simp
  obtain ⟨⟨order, index⟩, hpair, hhouse⟩ := List.mem_flatMap.mp hmem
  obtain ⟨hle, hget⟩ := List.mk_mem_zipIdx_iff_le_and_getElem?_sub.mp hpair
  cases order with
  | model name fields =>
    simp only [houses, List.mem_singleton, Prod.mk.injEq] at hhouse
    obtain ⟨rfl, rfl⟩ := hhouse
    exact ⟨index, fields, hle, hget, rfl⟩
  | _ => simp [houses] at hhouse

/-- A model is looked up in vain exactly if it is not declared. -/
theorem lookup_houses_eq_none_iff {model : String} :
    ((rest.zipIdx start).flatMap (houses script)).reverse.lookup model = none ↔
      ∀ fields, .model model fields ∉ rest := by
  rw [List.lookup_eq_none_iff]
  constructor
  · intro h fields hmem
    obtain ⟨i, hi⟩ := List.mem_iff_getElem?.mp hmem
    have hpair : (Order.model model fields, start + i) ∈ rest.zipIdx start :=
      List.mk_add_mem_zipIdx_iff_getElem?.mpr hi
    have hne := h (model, style.place script (.own (start + i)))
      (List.mem_reverse.mpr (List.mem_flatMap.mpr ⟨_, hpair, by simp [houses]⟩))
    simp at hne
  · rintro h ⟨name, handle⟩ hmem
    obtain ⟨⟨order, index⟩, hpair, hhouse⟩ := List.mem_flatMap.mp (List.mem_reverse.mp hmem)
    obtain ⟨-, hget⟩ := List.mk_mem_zipIdx_iff_le_and_getElem?_sub.mp hpair
    cases order with
    | model other fields =>
      simp only [houses, List.mem_singleton, Prod.mk.injEq] at hhouse
      obtain ⟨rfl, -⟩ := hhouse
      have hne : model ≠ name := by
        rintro rfl
        exact h fields (List.mem_of_getElem? hget)
      simpa using hne
    | _ => simp [houses] at hhouse

theorem own_mem_roles_of_declaration (h : script[index]? = some order)
    (hblock : order.block? = none) : .own index ∈ style.roles script :=
  own_mem_roles h (by simp [style, hblock])

/-- A model is at home in the block of its last declaration. -/
theorem home?_eq_iff (hscoped : Scoped script)
    (hroom : (style.roles script).length ≤ Handle.count) {name model : String}
    {fields : List Field} (hsplit : script = past ++ .model name fields :: rest) :
    (membersAfter script script).home? model = some (style.place script (.own past.length)) ↔
      model = name ∧ ∀ fields, .model name fields ∉ rest := by
  have hget : script[past.length]? = some (.model name fields) := by simp [hsplit]
  have hinj : ∀ {index fields}, script[index]? = some (.model model fields) →
      style.place script (.own past.length) = style.place script (.own index) →
      index = past.length := by
    intro index fields hindex hplace
    have hrole := place_inj hscoped hroom (own_mem_roles_of_declaration hget rfl)
      (own_mem_roles_of_declaration hindex rfl) hplace
    exact (Role.own.inj hrole).symm
  have hhomes : (script.zipIdx.flatMap (houses script)).reverse =
      ((rest.zipIdx (past.length + 1)).flatMap (houses script)).reverse ++
        ((name, style.place script (.own past.length)) ::
          (past.zipIdx.flatMap (houses script)).reverse) := by
    have hzip : script.zipIdx = past.zipIdx ++ (.model name fields, past.length) ::
        rest.zipIdx (past.length + 1) := by
      simp [hsplit, List.zipIdx_append, List.zipIdx_cons]
    rw [hzip]
    simp [houses]
  rw [membersAfter_eq, Members.home?, hhomes, List.lookup_append, List.lookup_cons]
  cases hlater : ((rest.zipIdx (past.length + 1)).flatMap (houses script)).reverse.lookup model with
  | some handle =>
    obtain ⟨index, fields', hle, hindex, rfl⟩ := houses_of_lookup hlater
    have hindex' : script[index]? = some (.model model fields') := by
      rw [hsplit, List.append_cons, List.getElem?_append_right (by simpa using hle)]
      simpa using hindex
    constructor
    · intro h
      have heq := hinj hindex' (Option.some.inj h).symm
      omega
    · rintro ⟨rfl, hnone⟩
      exact absurd (List.mem_of_getElem? hindex) (hnone fields')
  | none =>
    have hnone := lookup_houses_eq_none_iff.mp hlater
    by_cases heq : model = name
    · subst heq
      simpa using hnone
    · constructor
      · intro h
        have hearlier : (past.zipIdx.flatMap (houses script)).reverse.lookup model =
            some (style.place script (.own past.length)) := by
          simpa [show (model == name) = false by simpa using heq] using h
        obtain ⟨index, fields', -, hindex, hplace⟩ := houses_of_lookup hearlier
        rw [Nat.sub_zero] at hindex
        have hlt : index < past.length := (List.getElem?_eq_some_iff.mp hindex).1
        have hindex' : script[index]? = some (.model model fields') := by
          rw [hsplit, List.getElem?_append_left hlt, hindex]
        have hsame := hinj hindex' hplace
        omega
      · rintro ⟨rfl, -⟩
        exact absurd rfl heq

/-- A model has a home exactly if it is declared. -/
theorem home?_eq_none_iff {model : String} :
    (membersAfter script script).home? model = none ↔ ∀ fields, .model model fields ∉ script := by
  rw [membersAfter_eq, Members.home?, lookup_houses_eq_none_iff]

theorem exists_of_home? {model : String} {handle : Handle}
    (h : (membersAfter script script).home? model = some handle) :
    ∃ index fields, script[index]? = some (.model model fields) ∧
      handle = style.place script (.own index) := by
  rw [membersAfter_eq] at h
  obtain ⟨index, fields, -, hget, hplace⟩ := houses_of_lookup h
  exact ⟨index, fields, hget, hplace⟩

/-! ### Strays -/

variable {ω : Type} {body : Label → List (Outline ω)}

theorem mem_models {name : String} : name ∈ Section.models (rest.flatMap (Order.declared body)) ↔
    ∃ fields, .model name fields ∈ rest := by
  induction rest with
  | nil => simp [Section.models]
  | cons order rest ih =>
    rw [Section.models] at ih
    cases order <;> simp [Section.models, Order.declared, ih, exists_or]

theorem methods_eq (script : List Order) (start : Nat) :
    Section.methods (rest.flatMap (Order.declared body)) =
    ((rest.zipIdx start).flatMap (awaits script)).map fun member =>
      (member.model, member.method) := by
  induction rest generalizing start with
  | nil => rfl
  | cons order rest ih =>
    have hrest := ih (start + 1)
    rw [Section.methods] at hrest
    cases order <;> simp [Section.methods, Order.declared, awaits, List.zipIdx_cons, hrest]

/-- The first method without a model is found by its members. -/
theorem firstStray?_eq (hscoped : Scoped script) :
    Section.firstStray? (sections script : List (Section ω)) =
      ((membersAfter script script).firstStray? (membersAfter script script).waiting).map
        fun member => (member.model, member.method) := by
  have hstray : ∀ model, (!(Section.models (script.flatMap (Order.declared
      (bodies script : Label → List (Outline ω))))).contains model) =
      ((membersAfter script script).home? model).isNone := by
    intro model
    rw [Bool.eq_iff_iff, Option.isNone_iff_eq_none, home?_eq_none_iff]
    simp [mem_models]
  rw [Section.firstStray?, hscoped.sections_eq, methods_eq script 0, Members.firstStray?,
    waiting_eq, List.find?_map]
  simp only [Function.comp_def, hstray]

end Polyglot.TypeScript
