import Polyglot.Wire.Fact
import Polyglot.Wire.Program

/-! # Reading what was stored

Stored programs and facts are read back as they were, whatever is in them: numbers over their whole
ranges, any texts and any handles, also of blocks that are not there. Every kind of data is read
back from its own stored form, and a list from the forms of its items. What may be absent is stored
as `null` only if it is.
-/

namespace Polyglot

/-! ### Parts of stored trees -/

namespace Wire

@[simp] theorem tagged?_tagged (tag : String) (content : Wire) :
    (tagged tag content).tagged? = some (tag, content) := rfl

@[simp] theorem variant?_tagged (tag : String) (content : Wire) :
    (tagged tag content).variant? = some (tag, ⟨content, sizeOf_lt_of_tagged? rfl⟩) := rfl

@[simp] theorem get?_record (fields : List (String × Wire)) (name : String) :
    (record fields).get? name = fields.lookup name := rfl

@[simp] theorem unattach_field? (wire : Wire) (name : String) :
    (wire.field? name).unattach = wire.get? name := by
  simp [field?]

theorem exists_items?_list (items : List Wire) :
    ∃ parts, (list items).items? = some parts ∧ parts.unattach = items := by
  refine ⟨_, rfl, ?_⟩
  rw [List.unattach, List.map_map]
  exact List.attach_map_subtype_val items

/-- A list is read back if each of its items is. -/
theorem listOf?_map {α : Type} {read : Wire → Option α} {store : α → Wire} {values : List α}
    (h : ∀ value ∈ values, read (store value) = some value) :
    (list (values.map store)).listOf? read = some values := by
  change (values.map store).mapM read = some values
  induction values with
  | nil => rfl
  | cons value rest ih =>
    have hrest := ih fun other hother => h other (List.mem_cons_of_mem value hother)
    simp [h value List.mem_cons_self, hrest]

/-! ### Scalars -/

@[simp] theorem text?_text (content : String) : (text content).text? = some content := rfl

@[simp] theorem bool?_bool (b : Bool) : (bool b).bool? = some b := rfl

@[simp] theorem int64?_int (n : Int64) : (int n.toInt).int64? = some n := by
  simp only [int64?, int?, Option.bind_eq_bind, Option.bind_some]
  rw [if_pos ⟨n.minValue_le_toInt, n.toInt_le⟩, Int64.ofInt_toInt]

theorem natBelow?_int {bound n : Nat} (h : n < bound) : (int n).natBelow? bound = some n := by
  simp [natBelow?, int?, h]

@[simp] theorem uint64?_int (n : UInt64) : (int n.toNat).uint64? = some n := by
  rw [uint64?, natBelow?_int n.toNat_lt, Option.map_some]
  exact congrArg some UInt64.ofNat_toNat

@[simp] theorem uint32?_int (n : UInt32) : (int n.toNat).uint32? = some n := by
  rw [uint32?, natBelow?_int n.toNat_lt, Option.map_some]
  exact congrArg some UInt32.ofNat_toNat

end Wire

/-! ### Types -/

@[simp] theorem Ty.ofWire?_toWire (ty : Ty) : ofWire? ty.toWire = some ty := by
  induction ty with
  | primitive kind =>
    rw [toWire, ofWire?]
    simp [Primitive.ofTag?_tag]
  | model name =>
    rw [toWire, ofWire?]
    simp
  | array element ih =>
    rw [toWire, ofWire?]
    simp [ih]
  | map key value ihKey ihValue =>
    rw [toWire, ofWire?]
    simp [List.lookup_cons, ihKey, ihValue]
  | pointer pointee ih =>
    rw [toWire, ofWire?]
    simp [ih]

theorem Ty.toWire_ne_null (ty : Ty) : ty.toWire ≠ .null := by
  cases ty <;> rintro ⟨⟩

theorem Field.ofWire?_toWire (field : Field) : ofWire? field.toWire = some field := by
  simp [toWire, ofWire?, List.lookup_cons]

@[simp] theorem Operator.ofWire?_toWire (op : Operator) : ofWire? op.toWire = some op := by
  simp [toWire, ofWire?, ofTag?_tag]

/-! ### Values -/

namespace Value

/-- Only the null value is stored without a tag, so all others are read by theirs. -/
theorem tagged_ne_text (tag name : String) (content : Wire) :
    Wire.tagged tag content = .text name → False := by
  rintro ⟨⟩

mutual
@[simp] theorem ofWire?_toWire : (value : Value) → ofWire? value.toWire = some value
  | null => by rw [toWire, ofWire?]
  | text content => by
    rw [toWire, ofWire?, Wire.variant?_tagged, Option.bind_eq_bind, Option.bind_some]
    · simp
    · exact tagged_ne_text _ _ _
  | int n => by
    rw [toWire, ofWire?, Wire.variant?_tagged, Option.bind_eq_bind, Option.bind_some]
    · simp
    · exact tagged_ne_text _ _ _
  | float bits => by
    rw [toWire, ofWire?, Wire.variant?_tagged, Option.bind_eq_bind, Option.bind_some]
    · simp only [Wire.uint64?_int]
      rfl
    · exact tagged_ne_text _ _ _
  | bool b => by
    rw [toWire, ofWire?, Wire.variant?_tagged, Option.bind_eq_bind, Option.bind_some]
    · simp
    · exact tagged_ne_text _ _ _
  | array element elements => by
    rw [toWire, ofWire?, Wire.variant?_tagged, Option.bind_eq_bind, Option.bind_some]
    · obtain ⟨parts, hparts, hitems⟩ := Wire.exists_items?_list (toWires elements)
      simp [List.lookup_cons, hparts, hitems, mapM_toWires elements]
    · exact tagged_ne_text _ _ _
  | map key value entries => by
    rw [toWire, ofWire?, Wire.variant?_tagged, Option.bind_eq_bind, Option.bind_some]
    · obtain ⟨parts, hparts, hitems⟩ := Wire.exists_items?_list (entriesToWires entries)
      simp [List.lookup_cons, hparts, hitems, mapM_entriesToWires entries]
    · exact tagged_ne_text _ _ _
  | binding name => by
    rw [toWire, ofWire?, Wire.variant?_tagged, Option.bind_eq_bind, Option.bind_some]
    · simp
    · exact tagged_ne_text _ _ _
  | ownField field => by
    rw [toWire, ofWire?, Wire.variant?_tagged, Option.bind_eq_bind, Option.bind_some]
    · simp [ofWire?_toWire field]
    · exact tagged_ne_text _ _ _
  | modelField model field => by
    rw [toWire, ofWire?, Wire.variant?_tagged, Option.bind_eq_bind, Option.bind_some]
    · simp [List.lookup_cons, ofWire?_toWire field]
    · exact tagged_ne_text _ _ _
  | arrayElement source index => by
    rw [toWire, ofWire?, Wire.variant?_tagged, Option.bind_eq_bind, Option.bind_some]
    · simp [List.lookup_cons, ofWire?_toWire source, ofWire?_toWire index]
    · exact tagged_ne_text _ _ _
  | mapElement source key => by
    rw [toWire, ofWire?, Wire.variant?_tagged, Option.bind_eq_bind, Option.bind_some]
    · simp [List.lookup_cons, ofWire?_toWire source, ofWire?_toWire key]
    · exact tagged_ne_text _ _ _
  | combined left op right => by
    rw [toWire, ofWire?, Wire.variant?_tagged, Option.bind_eq_bind, Option.bind_some]
    · simp [List.lookup_cons, ofWire?_toWire left, ofWire?_toWire right]
    · exact tagged_ne_text _ _ _
  | intToText inner => by
    rw [toWire, ofWire?, Wire.variant?_tagged, Option.bind_eq_bind, Option.bind_some]
    · simp [ofWire?_toWire inner]
    · exact tagged_ne_text _ _ _

theorem mapM_toWires : (values : List Value) → (toWires values).mapM ofWire? = some values
  | [] => rfl
  | value :: rest => by simp [toWires, ofWire?_toWire value, mapM_toWires rest]

theorem mapM_entriesToWires : (entries : List (Value × Value)) →
    ((entriesToWires entries).mapM fun item =>
      (item.get? "key").bind fun key => (item.get? "value").bind fun value =>
        (ofWire? key).bind fun readKey => (ofWire? value).bind fun readValue =>
          some (readKey, readValue)) = some entries
  | [] => rfl
  | (key, value) :: rest => by
    simp [entriesToWires, List.lookup_cons, ofWire?_toWire key, ofWire?_toWire value,
      mapM_entriesToWires rest]
end

theorem toWire_ne_null (value : Value) : value.toWire ≠ .null := by
  cases value <;> rintro ⟨⟩

end Value

/-! ### Facts -/

theorem Wire.optional_map_eq_null_iff {α : Type} {store : α → Wire} (h : ∀ a, store a ≠ .null)
    (content : Option α) : Wire.optional (content.map store) = .null ↔ content = none := by
  cases content <;> simp [optional, h]

/-- What may be absent is read back, unless it is stored as `null` although it is there. -/
theorem Wire.getOptional?_of_lookup {α : Type} {store : α → Wire} (h : ∀ a, store a ≠ .null)
    {fields : List (String × Wire)} {name : String} {content : Option α}
    (hlookup : fields.lookup name = some (Wire.optional (content.map store))) :
    (record fields).getOptional? name = content.map store := by
  rw [getOptional?, get?_record, hlookup]
  cases content with
  | none => rfl
  | some a =>
    have hstored := h a
    simp only [optional, Option.map_some, Option.getD_some]

theorem SideEffect.ofWire?_toWire (effect : SideEffect) :
    ofWire? effect.toWire = some effect := by
  simp [toWire, ofWire?, List.lookup_cons]

theorem Fact.ofWire?_toWire (fact : Fact) : ofWire? fact.toWire = some fact := by
  have hinputs : (Wire.list (fact.inputs.map Value.toWire)).listOf? Value.ofWire? =
      some fact.inputs :=
    Wire.listOf?_map fun value _ => Value.ofWire?_toWire value
  have heffects : (Wire.list (fact.sideEffects.map SideEffect.toWire)).listOf? SideEffect.ofWire? =
      some fact.sideEffects :=
    Wire.listOf?_map fun effect _ => SideEffect.ofWire?_toWire effect
  have houtput : fact.toWire.getOptional? "output" = fact.output.map Value.toWire :=
    Wire.getOptional?_of_lookup Value.toWire_ne_null rfl
  obtain ⟨name, inputs, effects, output⟩ := fact
  rw [ofWire?, houtput, toWire]
  cases output <;> simp [List.lookup_cons, hinputs, heffects]

/-! ### Programs -/

theorem Handle.ofWire?_toWire (handle : Handle) : ofWire? handle.toWire = some handle := by
  rw [toWire, ofWire?, index, Wire.uint32?_int]
  rfl

namespace Stmt

/-! A statement with bodies is read back from any stored forms of its handles: what a handle is
stored as stays closed, since evaluating the bound on handles is out of reach. -/

section Bodies

variable {body thenBody elseBody : Handle} {stored storedThen storedElse : Wire}

theorem ofWire?_forEach (array : Value) (indexName valueName : String)
    (h : Handle.ofWire? stored = some body) :
    ofWire? (.tagged "ForEach" (.record [("array", array.toWire), ("index_name", .text indexName),
      ("value_name", .text valueName), ("body", stored)])) =
      some (enter (.forEach array indexName valueName) body) := by
  rw [ofWire?, Wire.tagged?_tagged, Option.bind_eq_bind, Option.bind_some]
  simp [List.lookup_cons, h]

theorem ofWire?_ifThen (condition : Value) (h : Handle.ofWire? stored = some body) :
    ofWire? (.tagged "If" (.record [("cond", condition.toWire), ("body", stored)])) =
      some (enter (.ifThen condition) body) := by
  rw [ofWire?, Wire.tagged?_tagged, Option.bind_eq_bind, Option.bind_some]
  simp [List.lookup_cons, h]

theorem ofWire?_branch (condition : Value) (hthen : Handle.ofWire? storedThen = some thenBody)
    (helse : Handle.ofWire? storedElse = some elseBody) :
    ofWire? (.tagged "IfElse" (.record [("cond", condition.toWire), ("then_body", storedThen),
      ("else_body", storedElse)])) = some (branch condition thenBody elseBody) := by
  rw [ofWire?, Wire.tagged?_tagged, Option.bind_eq_bind, Option.bind_some]
  simp [List.lookup_cons, hthen, helse]

end Bodies

theorem ofWire?_toWire (stmt : Stmt) : ofWire? stmt.toWire = some stmt := by
  cases stmt with
  | act action =>
    rw [toWire]
    cases action <;>
    · rw [Action.toWire, ofWire?, Wire.tagged?_tagged, Option.bind_eq_bind, Option.bind_some]
      simp [List.lookup_cons]
  | enter scope body =>
    have hbody := body.ofWire?_toWire
    cases scope with
    | forEach array indexName valueName => exact ofWire?_forEach array indexName valueName hbody
    | ifThen condition => exact ofWire?_ifThen condition hbody
  | branch condition thenBody elseBody =>
    exact ofWire?_branch condition thenBody.ofWire?_toWire elseBody.ofWire?_toWire

end Stmt

theorem Wire.listOf?_map_field (fields : List Field) :
    (list (fields.map Field.toWire)).listOf? Field.ofWire? = some fields :=
  listOf?_map fun field _ => Field.ofWire?_toWire field

theorem Method.ofWire?_record (method : Method) {stored : Wire}
    (h : Handle.ofWire? stored = some method.body) :
    ofWire? (.record [("model", .text method.model), ("name", .text method.name),
      ("params", .list (method.params.map Field.toWire)),
      ("returns", .optional (method.returns.map Ty.toWire)), ("body", stored)]) = some method := by
  have hparams := Wire.listOf?_map_field method.params
  obtain ⟨model, name, params, returns, body⟩ := method
  rw [ofWire?, Wire.getOptional?_of_lookup Ty.toWire_ne_null rfl]
  generalize params.map Field.toWire = storedParams at hparams ⊢
  cases returns <;> simp_all [List.lookup_cons]

theorem Method.ofWire?_toWire (method : Method) : ofWire? method.toWire = some method :=
  method.ofWire?_record method.body.ofWire?_toWire

theorem Decl.ofWire?_toWire (decl : Decl) : ofWire? decl.toWire = some decl := by
  cases decl with
  | model name fields => simp [toWire, ofWire?, List.lookup_cons, Wire.listOf?_map_field]
  | enumeration name values =>
    have hvalues : (Wire.list (values.map Wire.text)).listOf? Wire.text? = some values :=
      Wire.listOf?_map fun value _ => Wire.text?_text value
    simp [toWire, ofWire?, List.lookup_cons, hvalues]
  | method method => simp [toWire, ofWire?, Method.ofWire?_toWire]

theorem Program.ofWire?_toWire (program : Program) : ofWire? program.toWire = some program := by
  have hdecls : (Wire.list (program.decls.toList.map Decl.toWire)).listOf? Decl.ofWire? =
      some program.decls.toList :=
    Wire.listOf?_map fun decl _ => Decl.ofWire?_toWire decl
  have hblocks : (Wire.list ((program.blocks.toList.map Array.toList).map fun block =>
      .list (block.map Stmt.toWire))).listOf? (Wire.listOf? Stmt.ofWire?) =
        some (program.blocks.toList.map Array.toList) :=
    Wire.listOf?_map fun block _ => Wire.listOf?_map fun stmt _ => Stmt.ofWire?_toWire stmt
  have hwhole : (program.blocks.toList.map Array.toList).map List.toArray =
      program.blocks.toList := by
    simp [Function.comp_def]
  rw [List.map_map, Function.comp_def] at hblocks
  simp [toWire, ofWire?, List.lookup_cons, hdecls, hblocks, hwhole]

/-- Programs and facts are read back as they were stored, and what is absent is stored apart from
everything that may be there, the null value included. -/
theorem stored_read_back :
    (∀ program : Program, Program.ofWire? program.toWire = some program) ∧
    (∀ fact : Fact, Fact.ofWire? fact.toWire = some fact) ∧
    (∀ fact : Fact, fact.toWire.get? "output" = some .null ↔ fact.output = none) ∧
    (∀ method : Method, method.toWire.get? "returns" = some .null ↔ method.returns = none) ∧
    ∀ fact : Fact, ({ fact with output := none } : Fact).toWire ≠
      ({ fact with output := some .null } : Fact).toWire := by
  refine ⟨Program.ofWire?_toWire, Fact.ofWire?_toWire, ?_, ?_, ?_⟩
  · intro fact
    rw [← Wire.optional_map_eq_null_iff Value.toWire_ne_null]
    simp [Fact.toWire, List.lookup_cons]
  · intro method
    rw [← Wire.optional_map_eq_null_iff Ty.toWire_ne_null]
    simp [Method.toWire, List.lookup_cons]
  · intro fact hsame
    have hread := congrArg Fact.ofWire? hsame
    rw [Fact.ofWire?_toWire, Fact.ofWire?_toWire] at hread
    simp at hread

end Polyglot
