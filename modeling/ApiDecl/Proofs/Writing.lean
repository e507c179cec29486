import ApiDecl.Proofs.Inlining
import ApiDecl.Proofs.Result

/-!
# Proofs: what schemas are written

Which schemas a table gives to a type is a relation on types (`Catalog.Writes`), which does not
know of paths: a struct that is no definition is written out wherever it is named. Compiling a type
gives such a schema, unless a struct would have to be written out inside itself.
-/

namespace ApiDecl.Catalog

/-! ## The relation -/

mutual

/-- In the table, the schema is one of the type. -/
inductive Writes (c : Catalog) : FieldType → Schema → Prop
  | scalar (s : Scalar) : Writes c (.scalar s) (.typed s.kind.name)
  | dateTime {n : TypeName} (hd : n.isDateTime = true) : Writes c (.named n) .dateTime
  | unknown {n : TypeName} (hd : n.isDateTime = false) (hn : c.get? n = none) :
      Writes c (.named n) .empty
  | reference {n : TypeName} {s : StructDescriptor} (hd : n.isDateTime = false)
      (hn : c.get? n = some s) (hs : s.isDefinition = true) :
      Writes c (.named n) (.referTo (definitionId s.name))
  | inline {n : TypeName} {s : StructDescriptor} {schema : Schema} (hd : n.isDateTime = false)
      (hn : c.get? n = some s) (hs : s.isDefinition = false) (hw : Writes c (.struct s) schema) :
      Writes c (.named n) schema
  | map (value : Option FieldType) : Writes c (.map value) .dictionary
  | list : Writes c (.array none) (.list .empty)
  | bytes {t : FieldType} (ht : t.isByte = true) : Writes c (.array (some t)) (.typed "string")
  | array {t : FieldType} {schema : Schema} (ht : t.isByte = false) (hw : Writes c t schema) :
      Writes c (.array (some t)) (.list schema)
  | struct {s : StructDescriptor} {schema : Schema}
      (hw : WritesFields c (.typed "object") s.fields schema) : Writes c (.struct s) schema

/-- In the table, the fields make the first schema into the second. -/
inductive WritesFields (c : Catalog) : Schema → List Field → Schema → Prop
  | done (schema : Schema) : WritesFields c schema [] schema
  | hidden {start schema : Schema} {f : Field} {rest : List Field} (hf : f.propertyName? = none)
      (hw : WritesFields c start rest schema) : WritesFields c start (f :: rest) schema
  | property {start value schema : Schema} {f : Field} {rest : List Field} {name : String}
      (hf : f.propertyName? = some name) (ht : Writes c f.type value)
      (hw : WritesFields c
        (addProperty start name (require name f.tag (describe f.doc value))) rest schema) :
      WritesFields c start (f :: rest) schema

end

/-- A struct is written by its fields. -/
theorem Writes.of_fields_eq {c : Catalog} {s s' : StructDescriptor} {schema : Schema}
    (h : c.Writes (.struct s) schema) (hfields : s.fields = s'.fields) :
    c.Writes (.struct s') schema := by
  cases h with
  | struct hw => exact .struct (hfields ▸ hw)

/-- Fields add properties and nothing else. -/
theorem WritesFields.keeps {c : Catalog} {start schema : Schema} {fields : List Field}
    (h : c.WritesFields start fields schema) : schema.description = start.description ∧
      schema.required = start.required ∧ schema.reference = start.reference ∧
      schema.items = start.items ∧ schema.additionalProperties = start.additionalProperties := by
  match h with
  | .done _ => exact ⟨rfl, rfl, rfl, rfl, rfl⟩
  | .hidden _ hw => exact hw.keeps
  | .property _ _ hw => exact hw.keeps

/-- A struct that is written out has no description, is not required and is no reference. -/
theorem Writes.struct_keeps {c : Catalog} {s : StructDescriptor} {schema : Schema}
    (h : c.Writes (.struct s) schema) :
    schema.description = "" ∧ schema.required = [] ∧ schema.reference = none := by
  cases h with
  | struct hw =>
    obtain ⟨hdescription, hrequired, hreference, -⟩ := hw.keeps
    exact ⟨hdescription, hrequired, hreference⟩

/-! ## What is written, taken apart -/

section Parts

variable {c : Catalog} {n : TypeName} {s : StructDescriptor} {t : FieldType} {f : Field}
  {rest : List Field} {start schema : Schema}

theorem Writes.eq_dateTime (h : c.Writes (.named n) schema) (hd : n.isDateTime = true) :
    schema = .dateTime := by
  cases h with
  | dateTime _ => rfl
  | unknown hd' _ | reference hd' _ _ | inline hd' _ _ _ => simp [hd] at hd'

theorem Writes.eq_empty (h : c.Writes (.named n) schema) (hd : n.isDateTime = false)
    (hn : c.get? n = none) : schema = .empty := by
  cases h with
  | dateTime hd' => simp [hd] at hd'
  | unknown _ _ => rfl
  | reference _ hn' _ | inline _ hn' _ _ => simp [hn] at hn'

/-- For the name of a struct a reference is written if the struct is a definition, and else the
struct. -/
theorem Writes.reference_or_inline (h : c.Writes (.named n) schema) (hd : n.isDateTime = false)
    (hn : c.get? n = some s) :
    (s.isDefinition = true ∧ schema = .referTo (definitionId s.name)) ∨
      (s.isDefinition = false ∧ c.Writes (.struct s) schema) := by
  cases h with
  | dateTime hd' => simp [hd] at hd'
  | unknown _ hn' => simp [hn] at hn'
  | reference _ hn' hs =>
    obtain rfl := Option.some.inj (hn.symm.trans hn')
    exact .inl ⟨hs, rfl⟩
  | inline _ hn' hs hw =>
    obtain rfl := Option.some.inj (hn.symm.trans hn')
    exact .inr ⟨hs, hw⟩

theorem Writes.eq_bytes (h : c.Writes (.array (some t)) schema) (ht : t.isByte = true) :
    schema = .typed "string" := by
  cases h with
  | bytes _ => rfl
  | array ht' _ => simp [ht] at ht'

theorem Writes.exists_element (h : c.Writes (.array (some t)) schema) (ht : t.isByte = false) :
    ∃ element, c.Writes t element ∧ schema = .list element := by
  cases h with
  | bytes ht' => simp [ht] at ht'
  | array _ hw => exact ⟨_, hw, rfl⟩

theorem WritesFields.of_hidden (h : c.WritesFields start (f :: rest) schema)
    (hf : f.propertyName? = none) : c.WritesFields start rest schema := by
  cases h with
  | hidden _ hw => exact hw
  | property hf' _ _ => simp [hf] at hf'

theorem WritesFields.of_property {name : String} (h : c.WritesFields start (f :: rest) schema)
    (hf : f.propertyName? = some name) : ∃ value, c.Writes f.type value ∧ c.WritesFields
      (addProperty start name (require name f.tag (describe f.doc value))) rest schema := by
  cases h with
  | hidden hf' _ => simp [hf] at hf'
  | property hf' ht hw =>
    obtain rfl := Option.some.inj (hf.symm.trans hf')
    exact ⟨_, ht, hw⟩

end Parts

/-! ## Compiling case by case -/

section Cases

variable (c : Catalog) (path : List String)

theorem objectSchema_eq (s : StructDescriptor) :
    c.objectSchema path s = c.propertySchemas path (.typed "object") s.fields := by
  cases s
  rw [objectSchema]

theorem propertySchemas_nil (start : Schema) :
    c.propertySchemas path start [] = return start := by
  rw [propertySchemas.eq_def]

/-- A field adds the property of its name, if it has one in schemas. -/
theorem propertySchemas_cons (start : Schema) (f : Field) (rest : List Field) :
    c.propertySchemas path start (f :: rest) = match f.propertyName? with
      | none => c.propertySchemas path start rest
      | some name => c.typeSchema path f.type >>= fun value => c.propertySchemas path
          (addProperty start name (require name f.tag (describe f.doc value))) rest := by
  obtain ⟨fieldName, type, tag, doc, exported⟩ := f
  rw [propertySchemas.eq_def]
  cases exported with
  | false => rfl
  | true =>
    rw [Field.propertyName?, if_pos rfl]
    dsimp only
    cases tag.schemaName? <;> rfl

theorem propertySchemas_hidden (start : Schema) {f : Field} (rest : List Field)
    (hf : f.propertyName? = none) :
    c.propertySchemas path start (f :: rest) = c.propertySchemas path start rest := by
  rw [propertySchemas_cons, hf]

theorem propertySchemas_property (start : Schema) {f : Field} (rest : List Field) {name : String}
    (hf : f.propertyName? = some name) :
    c.propertySchemas path start (f :: rest) = (c.typeSchema path f.type >>= fun value =>
      c.propertySchemas path
        (addProperty start name (require name f.tag (describe f.doc value))) rest) := by
  rw [propertySchemas_cons, hf]

theorem typeSchema_dateTime {n : TypeName} (hd : n.isDateTime = true) :
    c.typeSchema path (.named n) = return Schema.dateTime := by
  rw [typeSchema, if_pos hd]

theorem typeSchema_unknown {n : TypeName} (hd : n.isDateTime = false) (hn : c.get? n = none) :
    c.typeSchema path (.named n) = do
      liftM (note (.schemaUnknown n.toText))
      return Schema.empty := by
  rw [typeSchema, if_neg (by simp [hd])]
  split
  · rfl
  · next h => simp [hn] at h

variable {n : TypeName} {s : StructDescriptor}

/-- The name of a struct is compiled to a reference if the struct is a definition, and else to the
struct written out, unless that is being written out already. -/
theorem typeSchema_struct (hd : n.isDateTime = false) (hn : c.get? n = some s) :
    c.typeSchema path (.named n) =
      if s.isDefinition then return Schema.referTo (definitionId s.name)
      else if s.name ∈ path then throw (.recursion (path ++ [s.name]))
      else c.objectSchema (path ++ [s.name]) s := by
  rw [typeSchema, if_neg (by simp [hd])]
  split
  · next h => simp [hn] at h
  · next t h =>
    obtain rfl := Option.some.inj (hn.symm.trans h)
    rfl

theorem typeSchema_reference (hd : n.isDateTime = false) (hn : c.get? n = some s)
    (hs : s.isDefinition = true) :
    c.typeSchema path (.named n) = return Schema.referTo (definitionId s.name) := by
  rw [typeSchema_struct c path hd hn, if_pos hs]

theorem typeSchema_again (hd : n.isDateTime = false) (hn : c.get? n = some s)
    (hs : s.isDefinition = false) (hpath : s.name ∈ path) :
    c.typeSchema path (.named n) = throw (.recursion (path ++ [s.name])) := by
  rw [typeSchema_struct c path hd hn, if_neg (by simp [hs]), if_pos hpath]

theorem typeSchema_inline (hd : n.isDateTime = false) (hn : c.get? n = some s)
    (hs : s.isDefinition = false) (hpath : s.name ∉ path) :
    c.typeSchema path (.named n) = c.objectSchema (path ++ [s.name]) s := by
  rw [typeSchema_struct c path hd hn, if_neg (by simp [hs]), if_neg hpath]

theorem typeSchema_bytes {t : FieldType} (ht : t.isByte = true) :
    c.typeSchema path (.array (some t)) = return Schema.typed "string" := by
  rw [typeSchema, if_pos ht]

theorem typeSchema_array {t : FieldType} (ht : t.isByte = false) :
    c.typeSchema path (.array (some t)) = Schema.list <$> c.typeSchema path t := by
  rw [typeSchema, if_neg (by simp [ht])]
  rfl

end Cases

/-! ## Reports do not matter -/

section Steady

open Compile

variable (c : Catalog)

mutual

theorem steady_objectSchema (path : List String) (s : StructDescriptor) :
    (c.objectSchema path s).Steady := by
  match s with
  | ⟨name, fields, isDefinition, embeds⟩ =>
    rw [objectSchema_eq]
    exact steady_propertySchemas path _ fields
termination_by (c.remaining path, sizeOf s)

theorem steady_propertySchemas (path : List String) (start : Schema) (fields : List Field) :
    (c.propertySchemas path start fields).Steady := by
  match fields with
  | [] =>
    rw [propertySchemas_nil]
    exact steady_pure start
  | ⟨fieldName, type, tag, doc, exported⟩ :: rest =>
    match hf : Field.propertyName? ⟨fieldName, type, tag, doc, exported⟩ with
    | none =>
      rw [propertySchemas_hidden c path start rest hf]
      exact steady_propertySchemas path start rest
    | some name =>
      rw [propertySchemas_property c path start rest hf]
      exact (steady_typeSchema path type).bind fun value => steady_propertySchemas path _ rest
termination_by (c.remaining path, sizeOf fields)

theorem steady_typeSchema (path : List String) (t : FieldType) : (c.typeSchema path t).Steady := by
  match t with
  | .scalar s =>
    rw [typeSchema]
    exact steady_pure _
  | .named n =>
    cases hd : n.isDateTime with
    | true =>
      rw [typeSchema_dateTime c path hd]
      exact steady_pure _
    | false =>
      match hn : c.get? n with
      | none =>
        rw [typeSchema_unknown c path hd hn]
        exact (steady_note _).bind fun _ => steady_pure _
      | some s =>
        cases hs : s.isDefinition with
        | true =>
          rw [typeSchema_reference c path hd hn hs]
          exact steady_pure _
        | false =>
          by_cases hpath : s.name ∈ path
          · rw [typeSchema_again c path hd hn hs hpath]
            exact steady_throw _
          · have := remaining_append_lt (name_mem_of_get? hn) hpath
            rw [typeSchema_inline c path hd hn hs hpath]
            exact steady_objectSchema (path ++ [s.name]) s
  | .map _ =>
    rw [typeSchema]
    exact steady_pure _
  | .array none =>
    rw [typeSchema]
    exact steady_pure _
  | .array (some element) =>
    cases ht : element.isByte with
    | true =>
      rw [typeSchema_bytes c path ht]
      exact steady_pure _
    | false =>
      rw [typeSchema_array c path ht]
      exact (steady_typeSchema path element).map _
  | .struct inner =>
    rw [typeSchema]
    exact steady_objectSchema path inner
termination_by (c.remaining path, sizeOf t)

end

end Steady

/-! ## Structs, fields and definitions -/

section Whole

open Compile

variable (c : Catalog) (s : StructDescriptor)

theorem structSchema_definition {s : StructDescriptor} (hs : s.isDefinition = true)
    (name : String) :
    c.structSchema s (some name) = return Schema.referTo (definitionId name) := by
  unfold structSchema
  rw [hs]

theorem structSchema_plain {s : StructDescriptor} (hs : s.isDefinition = false)
    (name : Option String) : c.structSchema s name = c.inlineSchema s name := by
  unfold structSchema
  rw [hs]
  cases name <;> rfl

theorem steady_inlineSchema (name : Option String) : (c.inlineSchema s name).Steady :=
  steady_objectSchema c _ s

/-- The schema of a struct is a reference if the struct is a definition and has a name, and else that
of the struct written out. -/
theorem structSchema_reference_or_inline (name : Option String) :
    (∃ n, name = some n ∧ s.isDefinition = true ∧
      c.structSchema s name = return Schema.referTo (definitionId n)) ∨
      c.structSchema s name = c.inlineSchema s name := by
  cases hs : s.isDefinition with
  | false => exact .inr (structSchema_plain c hs name)
  | true =>
    cases name with
    | none => exact .inr rfl
    | some n => exact .inl ⟨n, rfl, rfl, structSchema_definition c hs n⟩

theorem steady_structSchema (name : Option String) : (c.structSchema s name).Steady := by
  rcases structSchema_reference_or_inline c s name with ⟨n, -, -, hschema⟩ | hschema
  · rw [hschema]
    exact steady_pure _
  · rw [hschema]
    exact steady_inlineSchema c s name

theorem steady_fieldSchema (f : Field) : (c.fieldSchema f).Steady :=
  (steady_typeSchema c [] f.type).bind fun _ => steady_pure _

theorem result_fieldSchema (f : Field) :
    (c.fieldSchema f).result = describe f.doc <$> (c.typeSchema [] f.type).result := by
  rw [← result_map, map_eq_pure_bind]
  rfl

theorem steady_definition : (c.definition s).Steady :=
  (steady_note _).bind fun _ => (steady_inlineSchema c s _).bind fun _ => steady_pure _

theorem result_definition :
    (c.definition s).result =
      Definition.mk (definitionId s.name) s.name <$> (c.inlineSchema s (some s.name)).result := by
  rw [definition, result_bind fun _ => (steady_inlineSchema c s _).bind fun _ => steady_pure _,
    result_note, ← result_map, map_eq_pure_bind]
  rfl

theorem steady_definitions : c.definitions.Steady :=
  (Steady.mapM (steady_definition c) _).bind fun _ => (steady_note _).bind fun _ => steady_pure _

theorem result_definitions :
    c.definitions.result =
      (c.structs.filter (·.isDefinition)).mapM fun s => (c.definition s).result := by
  rw [definitions, result_bind fun ds => (steady_note _).bind fun _ => steady_pure ds,
    result_mapM (steady_definition c)]
  exact bind_pure _

theorem mem_definitions {c : Catalog} {s : StructDescriptor} :
    s ∈ c.structs.filter (·.isDefinition) ↔ s ∈ c.structs ∧ s.isDefinition = true := by
  simp

end Whole

end ApiDecl.Catalog
