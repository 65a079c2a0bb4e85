import Polyglot.Proofs.Reading.Values

/-! # What pieces say about values

The essence of a value is what its target says about it. TypeScript does not spell the element types
of arrays, and has one type for all numbers; Go reads elements of maps as it reads those of arrays.
The pieces of a value are those of its essence, and in each literal, entry and element they
determine the pieces of the parts.
-/

namespace Polyglot

/-- All numbers as one type. -/
def Ty.collapse : Ty → Ty
  | .primitive .bool => .primitive .bool
  | .primitive .string => .primitive .string
  | .primitive _ => .primitive .int
  | .model name => .model name
  | .array element => .array element.collapse
  | .map key value => .map key.collapse value.collapse
  | .pointer pointee => .pointer pointee.collapse

namespace Value

mutual
/-- The value with other types in its literals and other elements of maps. -/
def recast (element mapped : Ty → Ty) (access : Value → Value → Value) : Value → Value
  | .null => .null
  | .text content => .text content
  | .int n => .int n
  | .float bits => .float bits
  | .bool b => .bool b
  | .array ty elements => .array (element ty) (recastAll element mapped access elements)
  | .map key value entries =>
    .map (mapped key) (mapped value) (recastEntries element mapped access entries)
  | .binding name => .binding name
  | .ownField field => .ownField (recast element mapped access field)
  | .modelField model field => .modelField model (recast element mapped access field)
  | .arrayElement source index =>
    .arrayElement (recast element mapped access source) (recast element mapped access index)
  | .mapElement source key =>
    access (recast element mapped access source) (recast element mapped access key)
  | .combined left op right =>
    .combined (recast element mapped access left) op (recast element mapped access right)
  | .intToText inner => .intToText (recast element mapped access inner)

def recastAll (element mapped : Ty → Ty) (access : Value → Value → Value) :
    List Value → List Value
  | [] => []
  | value :: rest => recast element mapped access value :: recastAll element mapped access rest

def recastEntries (element mapped : Ty → Ty) (access : Value → Value → Value) :
    List (Value × Value) → List (Value × Value)
  | [] => []
  | (key, value) :: rest =>
    (recast element mapped access key, recast element mapped access value) ::
      recastEntries element mapped access rest
end

section
variable (element mapped : Ty → Ty) (access : Value → Value → Value)

theorem recastAll_eq_map (values : List Value) :
    recastAll element mapped access values = values.map (recast element mapped access) := by
  induction values with
  | nil => rfl
  | cons value rest ih => rw [recastAll, ih, List.map_cons]

theorem recastEntries_eq_map (entries : List (Value × Value)) :
    recastEntries element mapped access entries = entries.map fun entry =>
      (recast element mapped access entry.1, recast element mapped access entry.2) := by
  induction entries with
  | nil => rfl
  | cons entry rest ih => rw [recastEntries, ih, List.map_cons]

end

end Value

/-- The value up to element types of arrays and to the width of numbers in types of maps. -/
def TypeScript.essence : Value → Value :=
  Value.recast (fun _ => .primitive .int) Ty.collapse .mapElement

/-- The value with all elements of maps as elements of arrays. -/
def Go.essence : Value → Value :=
  Value.recast id id .arrayElement

namespace Reading

namespace Tongue

def elementTy : Tongue → Ty → Ty
  | script, _ => .primitive .int
  | go _ _, ty => ty

def mapTy : Tongue → Ty → Ty
  | script, ty => ty.collapse
  | go _ _, ty => ty

def access : Tongue → Value → Value → Value
  | script => .mapElement
  | go _ _ => .arrayElement

/-- What the target says about a value. -/
def essence (tongue : Tongue) : Value → Value :=
  Value.recast tongue.elementTy tongue.mapTy tongue.access

theorem essence_array (tongue : Tongue) (element : Ty) (elements : List Value) :
    tongue.essence (.array element elements) =
      .array (tongue.elementTy element) (elements.map tongue.essence) := by
  rw [essence, Value.recast, Value.recastAll_eq_map]

theorem essence_map (tongue : Tongue) (key value : Ty) (entries : List (Value × Value)) :
    tongue.essence (.map key value entries) = .map (tongue.mapTy key) (tongue.mapTy value)
      (entries.map fun entry => (tongue.essence entry.1, tongue.essence entry.2)) := by
  rw [essence, Value.recast, Value.recastEntries_eq_map]

end Tongue

variable {tongue : Tongue}

/-! ### Types -/

theorem scriptType_collapse (ty : Ty) : scriptType ty.collapse = scriptType ty := by
  induction ty with
  | primitive kind => cases kind <;> rfl
  | model name => rfl
  | array element ih => rw [Ty.collapse, scriptType, scriptType, ih]
  | map key value ihKey ihValue => rw [Ty.collapse, scriptType, scriptType, ihKey, ihValue]
  | pointer pointee => rfl

/-- What stands before the first separator and after it is determined. -/
theorem split_inj {separator : Piece} {first second rest others : List Piece}
    (hfirst : separator ∉ first) (hsecond : separator ∉ second)
    (h : first ++ separator :: rest = second ++ separator :: others) :
    first = second ∧ rest = others := by
  have hlacks : ∀ {pieces : List Piece}, separator ∉ pieces → ∀ piece ∈ pieces,
      piece ≠ separator := by
    rintro pieces hpieces piece hpiece rfl
    exact hpieces hpiece
  obtain ⟨hsame, htail⟩ := append_inj_of_run (hlacks hfirst) (hlacks hsecond) (by simp) (by simp) h
  exact ⟨hsame, (List.cons.inj htail).2⟩

/-- A name is none of the words that the targets spell. -/
theorem ne_of_reserved {name word : String} (h : IsName tongue name) (hword : word ∈ reserved) :
    name ≠ word := by
  rintro rfl
  exact h.not_reserved hword

theorem word_eq {first second : String}
    (h : [Piece.word first.toList] = [.word second.toList]) : first = second := by
  simpa [String.toList_inj] using h

theorem primitiveText_mem_reserved (kind : Primitive) :
    TypeScript.primitiveText kind ∈ reserved := by
  cases kind <;> decide

theorem primitiveName_mem_reserved (kind : Primitive) : kind.name ∈ reserved := by
  cases kind <;> decide

theorem scriptType_inj {first second : Ty} (hfirst : first.Legible tongue)
    (hsecond : second.Legible tongue) (h : scriptType first = scriptType second) :
    first.collapse = second.collapse := by
  induction first generalizing second with
  | primitive kind =>
    cases second with
    | primitive other =>
      have hword : TypeScript.primitiveText kind = TypeScript.primitiveText other := word_eq h
      revert hword
      cases kind <;> cases other <;> decide
    | model name =>
      have hword : TypeScript.primitiveText kind = name := word_eq h
      exact absurd hword.symm (ne_of_reserved (hsecond.2 name (List.mem_singleton_self name))
        (primitiveText_mem_reserved kind))
    | pointer pointee => cases hsecond.1
    | _ =>
      have hlast := congrArg List.getLast? h
      simp [scriptType] at hlast
  | model name =>
    cases second with
    | primitive kind =>
      have hword : name = TypeScript.primitiveText kind := word_eq h
      exact absurd hword (ne_of_reserved (hfirst.2 name (List.mem_singleton_self name))
        (primitiveText_mem_reserved kind))
    | model other =>
      obtain rfl : name = other := word_eq h
      rfl
    | pointer pointee => cases hsecond.1
    | _ =>
      have hlast := congrArg List.getLast? h
      simp [scriptType] at hlast
  | array element ih =>
    cases second with
    | array other =>
      have hother : other.Legible tongue := hsecond
      have helement : scriptType element = scriptType other := by simpa [scriptType] using h
      rw [Ty.collapse, Ty.collapse, ih hfirst hother helement]
    | pointer pointee => cases hsecond.1
    | _ =>
      have hlast := congrArg List.getLast? h
      simp [scriptType] at hlast
  | map key value ihKey ihValue =>
    cases second with
    | map key' value' =>
      have htypes : scriptType key ++ comma :: scriptType value =
          scriptType key' ++ comma :: scriptType value' := by
        simpa [scriptType] using h
      obtain ⟨hkey, hvalue⟩ := split_inj
        (not_mem_of_unseparated (phrase_scriptType hfirst.key).unseparated rfl)
        (not_mem_of_unseparated (phrase_scriptType hsecond.key).unseparated rfl) htypes
      rw [Ty.collapse, Ty.collapse, ihKey hfirst.key hsecond.key hkey,
        ihValue hfirst.value hsecond.value hvalue]
    | pointer pointee => cases hsecond.1
    | _ =>
      have hlast := congrArg List.getLast? h
      simp [scriptType] at hlast
  | pointer pointee => cases hfirst.1

theorem goType_inj {first second : Ty} (hfirst : first.Legible tongue)
    (hsecond : second.Legible tongue) (h : goType first = goType second) : first = second := by
  induction first generalizing second with
  | primitive kind =>
    cases second with
    | primitive other =>
      have hword : kind.name = other.name := word_eq h
      revert hword
      cases kind <;> cases other <;> decide
    | model name =>
      have hword : kind.name = name := word_eq h
      exact absurd hword.symm (ne_of_reserved (hsecond.2 name (List.mem_singleton_self name))
        (primitiveName_mem_reserved kind))
    | pointer pointee => cases hsecond.1
    | _ => simp [goType] at h
  | model name =>
    cases second with
    | primitive kind =>
      have hword : name = kind.name := word_eq h
      exact absurd hword (ne_of_reserved (hfirst.2 name (List.mem_singleton_self name))
        (primitiveName_mem_reserved kind))
    | model other =>
      obtain rfl : name = other := word_eq h
      rfl
    | pointer pointee => cases hsecond.1
    | _ => simp [goType] at h
  | array element ih =>
    cases second with
    | array other =>
      have hother : other.Legible tongue := hsecond
      rw [ih hfirst hother (List.cons.inj h).2]
    | pointer pointee => cases hsecond.1
    | _ => simp [goType] at h
  | map key value ihKey ihValue =>
    cases second with
    | map key' value' =>
      simp only [goType, List.cons.injEq, Piece.group.injEq, true_and] at h
      rw [ihKey hfirst.key hsecond.key h.1, ihValue hfirst.value hsecond.value h.2]
    | pointer pointee => cases hsecond.1
    | _ => simp [goType] at h
  | pointer pointee => cases hfirst.1

/-! ### Literals and elements -/

/-- A group at the end and what stands before it are determined. -/
theorem append_group_inj {bracket : Bracket} {first second body body' : List Piece}
    (h : first ++ [.group bracket body] = second ++ [.group bracket body']) :
    first = second ∧ body = body' := by
  obtain ⟨hfirst, hgroup⟩ := List.append_inj' h rfl
  simpa [hfirst] using hgroup

theorem arrayLiteral_inj {first second : Ty} {body body' : List Piece}
    (hfirst : first.Legible tongue) (hsecond : second.Legible tongue)
    (h : tongue.arrayLiteral first body = tongue.arrayLiteral second body') :
    tongue.elementTy first = tongue.elementTy second ∧ body = body' := by
  cases tongue with
  | script => simpa [Tongue.arrayLiteral, Tongue.elementTy] using h
  | go receiver identifier =>
    obtain ⟨htype, hbody⟩ := append_group_inj h
    exact ⟨goType_inj hfirst hsecond (List.cons.inj htype).2, hbody⟩

theorem mapLiteral_inj {key value key' value' : Ty} {body body' : List Piece}
    (hkey : key.Legible tongue) (hvalue : value.Legible tongue) (hkey' : key'.Legible tongue)
    (hvalue' : value'.Legible tongue)
    (h : tongue.mapLiteral key value body = tongue.mapLiteral key' value' body') :
    tongue.mapTy key = tongue.mapTy key' ∧ tongue.mapTy value = tongue.mapTy value' ∧
      body = body' := by
  cases tongue with
  | script =>
    simp only [Tongue.mapLiteral, List.cons.injEq, Piece.group.injEq, and_true, true_and] at h
    obtain ⟨hkeys, hvalues⟩ := split_inj
      (not_mem_of_unseparated (phrase_scriptType hkey).unseparated rfl)
      (not_mem_of_unseparated (phrase_scriptType hkey').unseparated rfl) h.1
    exact ⟨scriptType_inj hkey hkey' hkeys, scriptType_inj hvalue hvalue' hvalues, h.2⟩
  | go receiver identifier =>
    obtain ⟨htype, hbody⟩ := append_group_inj h
    simp only [goType, List.cons.injEq, Piece.group.injEq, true_and] at htype
    exact ⟨goType_inj hkey hkey' htype.1, goType_inj hvalue hvalue' htype.2, hbody⟩

theorem entry_inj {key value key' value' : List Piece}
    (hkey : ∀ piece ∈ key, piece.isSeparator = false)
    (hkey' : ∀ piece ∈ key', piece.isSeparator = false)
    (h : tongue.entry key value = tongue.entry key' value') : key = key' ∧ value = value' := by
  cases tongue with
  | script =>
    simp only [Tongue.entry, List.cons.injEq, Piece.group.injEq, and_true, true_and] at h
    exact split_inj (not_mem_of_unseparated hkey rfl) (not_mem_of_unseparated hkey' rfl) h
  | go receiver identifier =>
    exact split_inj (not_mem_of_unseparated hkey rfl) (not_mem_of_unseparated hkey' rfl) h

theorem lookup_inj {source key source' key' : List Piece}
    (h : tongue.lookup source key = tongue.lookup source' key') :
    source = source' ∧ key = key' := by
  cases tongue with
  | script =>
    obtain ⟨hsource, hrest⟩ := List.append_inj' h rfl
    simpa [hsource] using hrest
  | go receiver identifier => exact append_group_inj h

theorem conversion_inj {inner inner' : List Piece}
    (h : tongue.conversion inner = tongue.conversion inner') : inner = inner' := by
  cases tongue with
  | script => simpa [Tongue.conversion] using h
  | go receiver identifier => simpa [Tongue.conversion] using h

theorem symbol_inj {op op' : Operator} (h : tongue.symbol op = tongue.symbol op') : op = op' := by
  cases tongue with
  | script =>
    revert h
    change TypeScript.operatorText op = TypeScript.operatorText op' → _
    cases op <;> cases op' <;> decide
  | go receiver identifier =>
    revert h
    change op.symbol = op'.symbol → _
    cases op <;> cases op' <;> decide

/-! ### Pieces of the essence -/

theorem isOperation_essence (value : Value) :
    (tongue.essence value).isOperation = value.isOperation := by
  cases value with
  | mapElement source key => cases tongue <;> rfl
  | _ => rfl

theorem arrayLiteral_elementTy (element : Ty) (body : List Piece) :
    tongue.arrayLiteral (tongue.elementTy element) body = tongue.arrayLiteral element body := by
  cases tongue <;> rfl

theorem mapLiteral_mapTy (key value : Ty) (body : List Piece) :
    tongue.mapLiteral (tongue.mapTy key) (tongue.mapTy value) body =
      tongue.mapLiteral key value body := by
  cases tongue with
  | script =>
    simp only [Tongue.mapLiteral, Tongue.mapTy, scriptType_collapse]
  | go receiver identifier => rfl

theorem pieces_access (source key : Value) : tongue.pieces (tongue.access source key) =
    tongue.lookup (tongue.pieces source) (tongue.pieces key) := by
  cases tongue <;> rfl

/-- What the target does not say about a value does not show in its pieces. -/
theorem pieces_essence (value : Value) :
    tongue.pieces (tongue.essence value) = tongue.pieces value := by
  induction value using Value.induction_children with
  | step value ih =>
    cases value with
    | array element elements =>
      rw [Tongue.essence_array, Tongue.pieces, Tongue.pieces, arrayLiteral_elementTy,
        Tongue.piecesAll_eq_map, Tongue.piecesAll_eq_map, List.map_map]
      exact congrArg _ (congrArg separated (List.map_congr_left ih))
    | map key value entries =>
      have hentries : entries.map (fun entry => tongue.entry
          (tongue.pieces (tongue.essence entry.1)) (tongue.pieces (tongue.essence entry.2))) =
            entries.map fun entry =>
              tongue.entry (tongue.pieces entry.1) (tongue.pieces entry.2) := by
        refine List.map_congr_left fun entry hentry => ?_
        obtain ⟨hkey, hvalue⟩ := mem_children_of_entry hentry
        rw [ih entry.1 hkey, ih entry.2 hvalue]
      rw [Tongue.essence_map, Tongue.pieces, Tongue.pieces, mapLiteral_mapTy,
        Tongue.entryPieces_eq_map, Tongue.entryPieces_eq_map, List.map_map]
      exact congrArg _ (congrArg separated hentries)
    | ownField field =>
      change tongue.pieces (.ownField (tongue.essence field)) = _
      rw [Tongue.pieces, Tongue.pieces, ih field List.mem_cons_self]
    | modelField model field =>
      change tongue.pieces (.modelField model (tongue.essence field)) = _
      rw [Tongue.pieces, Tongue.pieces, ih field List.mem_cons_self]
    | arrayElement source index =>
      have hsource := ih source List.mem_cons_self
      have hindex := ih index (List.mem_cons_of_mem _ List.mem_cons_self)
      change tongue.pieces (.arrayElement (tongue.essence source) (tongue.essence index)) = _
      rw [Tongue.pieces, Tongue.pieces, hsource, hindex]
    | mapElement source key =>
      have hsource := ih source List.mem_cons_self
      have hkey := ih key (List.mem_cons_of_mem _ List.mem_cons_self)
      change tongue.pieces (tongue.access (tongue.essence source) (tongue.essence key)) = _
      rw [pieces_access, Tongue.pieces, hsource, hkey]
    | combined left op right =>
      have hleft := ih left List.mem_cons_self
      have hright := ih right (List.mem_cons_of_mem _ List.mem_cons_self)
      change tongue.pieces (.combined (tongue.essence left) op (tongue.essence right)) = _
      rw [Tongue.pieces, Tongue.pieces, Tongue.operand, Tongue.operand, isOperation_essence,
        isOperation_essence, hleft, hright]
      rfl
    | intToText inner =>
      change tongue.pieces (.intToText (tongue.essence inner)) = _
      rw [Tongue.pieces, Tongue.pieces, ih inner List.mem_cons_self]
    | _ => rfl

end Reading

end Polyglot
