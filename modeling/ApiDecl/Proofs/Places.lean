import ApiDecl.Proofs.Writing

/-!
# Proofs: places in schemas

A place is a way into a schema (`Schema.At`), and the same way leads into the type that the schema is
of (`Catalog.typeAt?`). What stands at a place of the schema is a reference just if the type there
names a definition, and then the reference is to that one.
-/

namespace ApiDecl

/-! ## Ways into schemas and types -/

/-- A step into a schema. -/
inductive Schema.Step where
  /-- To the elements of a list. -/
  | items
  /-- To the properties that are not listed. -/
  | additional
  /-- To the property of a name. -/
  | property (name : String)
  deriving Repr, DecidableEq, Inhabited

/-- The steps lead from the first schema to the second. -/
inductive Schema.At : Schema → List Step → Schema → Prop
  | here (σ : Schema) : At σ [] σ
  | items {σ τ ρ : Schema} {place : List Step} (h : σ.items = some τ) (hρ : At τ place ρ) :
      At σ (.items :: place) ρ
  | additional {σ τ ρ : Schema} {place : List Step} (h : σ.additionalProperties = some τ)
      (hρ : At τ place ρ) : At σ (.additional :: place) ρ
  | property {σ τ ρ : Schema} {name : String} {place : List Step} (h : (name, τ) ∈ σ.properties)
      (hρ : At τ place ρ) : At σ (.property name :: place) ρ

/-- The schemas differ in their descriptions and in what is required at most. -/
structure Schema.SameParts (σ τ : Schema) : Prop where
  order : σ.order = τ.order
  items : σ.items = τ.items
  properties : σ.properties = τ.properties
  additionalProperties : σ.additionalProperties = τ.additionalProperties
  reference : σ.reference = τ.reference

theorem Schema.SameParts.refl (σ : Schema) : σ.SameParts σ := ⟨rfl, rfl, rfl, rfl, rfl⟩

theorem Schema.SameParts.trans {σ τ ρ : Schema} (h : σ.SameParts τ) (h' : τ.SameParts ρ) :
    σ.SameParts ρ where
  order := h.order.trans h'.order
  items := h.items.trans h'.items
  properties := h.properties.trans h'.properties
  additionalProperties := h.additionalProperties.trans h'.additionalProperties
  reference := h.reference.trans h'.reference

/-- The field of a property: of several visible fields with its name the last one counts. -/
def lastNamed? (fields : List Field) (name : String) : Option Field :=
  (fields.filter fun f => f.propertyName? == some name).getLast?

namespace Catalog

/-- The type to which steps lead from a type. -/
def typeAt? (c : Catalog) : FieldType → List Schema.Step → Option FieldType
  | t, [] => some t
  | .array (some element), .items :: place => c.typeAt? element place
  | .struct s, .property name :: place =>
    (lastNamed? s.fields name).bind fun f => c.typeAt? f.type place
  | .named n, .property name :: place =>
    ((c.get? n).bind fun s => lastNamed? s.fields name).bind fun f => c.typeAt? f.type place
  | _, _ => none

variable {c : Catalog}

/-- Steps into a name are steps into its struct. -/
theorem typeAt?_named {n : TypeName} {s : StructDescriptor} (hn : c.get? n = some s)
    (step : Schema.Step) (place : List Schema.Step) :
    c.typeAt? (.named n) (step :: place) = c.typeAt? (.struct s) (step :: place) := by
  cases step with
  | items => rfl
  | additional => rfl
  | property name => simp only [typeAt?, hn, Option.bind_some]

/-! ## Properties of structs -/

theorem lastNamed?_cons_of_some {f g : Field} {fields : List Field} {name : String}
    (h : lastNamed? fields name = some g) : lastNamed? (f :: fields) name = some g := by
  unfold lastNamed? at h ⊢
  rw [List.filter_cons]
  split
  · rw [List.getLast?_cons, h]
    rfl
  · exact h

theorem lastNamed?_cons_of_none {f : Field} {fields : List Field} {name : String}
    (h : lastNamed? fields name = none) (hf : f.propertyName? = some name) :
    lastNamed? (f :: fields) name = some f := by
  unfold lastNamed? at h ⊢
  rw [List.filter_cons_of_pos (by simp [hf]), List.getLast?_cons, h]
  rfl

theorem lastNamed?_cons_of_ne {f : Field} {fields : List Field} {name : String}
    (hf : f.propertyName? ≠ some name) : lastNamed? (f :: fields) name = lastNamed? fields name := by
  unfold lastNamed?
  rw [List.filter_cons_of_neg (by simpa using hf)]

/-- A property is written by its field, or was there before. -/
theorem WritesFields.property_of_mem {start schema : Schema} {fields : List Field}
    (h : c.WritesFields start fields schema) (hnd : (start.properties.map (·.1)).Nodup)
    {name : String} {σ : Schema} (hσ : (name, σ) ∈ schema.properties) :
    (∃ f value, lastNamed? fields name = some f ∧ c.Writes f.type value ∧
      σ = require name f.tag (describe f.doc value)) ∨
    (lastNamed? fields name = none ∧ (name, σ) ∈ start.properties) := by
  match h with
  | .done _ => exact .inr ⟨rfl, hσ⟩
  | .hidden hf hw =>
    rw [lastNamed?_cons_of_ne (by simp [hf])]
    exact hw.property_of_mem hnd hσ
  | .property hf ht hw =>
    rcases hw.property_of_mem (nodup_map_putByKey hnd) hσ with ⟨g, value, hg, hvalue, rfl⟩ | ⟨hnone, hmem⟩
    · exact .inl ⟨g, value, lastNamed?_cons_of_some hg, hvalue, rfl⟩
    · rcases mem_putByKey hnd hmem with hnew | ⟨hold, hne⟩
      · obtain ⟨rfl, rfl⟩ := Prod.mk.inj hnew
        exact .inl ⟨_, _, lastNamed?_cons_of_none hnone hf, ht, rfl⟩
      · refine .inr ⟨?_, hold⟩
        rw [lastNamed?_cons_of_ne fun e => hne (Option.some.inj (e.symm.trans hf)), hnone]

/-! ## What stands at a place -/

/-- What stands in a schema does not depend on its description and on what is required. -/
theorem at_of_same {σ σ' ρ : Schema} {place : List Schema.Step} (hs : σ'.SameParts σ)
    (h : σ'.At place ρ) : ∃ ρ', σ.At place ρ' ∧ ρ.SameParts ρ' := by
  cases h with
  | here => exact ⟨σ, .here σ, hs⟩
  | items h hρ => exact ⟨ρ, .items (hs.items ▸ h) hρ, .refl ρ⟩
  | additional h hρ => exact ⟨ρ, .additional (hs.additionalProperties ▸ h) hρ, .refl ρ⟩
  | property h hρ => exact ⟨ρ, .property (hs.properties ▸ h) hρ, .refl ρ⟩

theorem at_describe {doc : String} {σ ρ : Schema} {place : List Schema.Step}
    (h : (describe doc σ).At place ρ) : ∃ ρ', σ.At place ρ' ∧ ρ.SameParts ρ' := by
  refine at_of_same ?_ h
  unfold describe
  split <;> exact ⟨rfl, rfl, rfl, rfl, rfl⟩

theorem at_require {name : String} {tag : Tag} {σ ρ : Schema} {place : List Schema.Step}
    (h : (require name tag σ).At place ρ) : ∃ ρ', σ.At place ρ' ∧ ρ.SameParts ρ' := by
  refine at_of_same ?_ h
  unfold require
  split <;> exact ⟨rfl, rfl, rfl, rfl, rfl⟩

/-- A step into a struct that is written out leads to the property of a field. -/
theorem Writes.exists_property {s : StructDescriptor} {σ ρ : Schema} {step : Schema.Step}
    {place : List Schema.Step} (h : c.Writes (.struct s) σ) (hρ : σ.At (step :: place) ρ) :
    ∃ name f value, step = .property name ∧ lastNamed? s.fields name = some f ∧
      c.Writes f.type value ∧ (require name f.tag (describe f.doc value)).At place ρ := by
  cases h with
  | struct hw =>
    obtain ⟨-, -, -, hitems, hadditional⟩ := hw.keeps
    cases hρ with
    | items h _ => simp [hitems, Schema.typed] at h
    | additional h _ => simp [hadditional, Schema.typed] at h
    | @property _ τ _ name _ h hρ =>
      rcases hw.property_of_mem List.nodup_nil h with ⟨f, value, hf, hvalue, rfl⟩ | ⟨-, hmem⟩
      · exact ⟨name, f, value, rfl, hf, hvalue, hρ⟩
      · simp [Schema.typed] at hmem

/-- A step into a struct that is written out leads to the schema of a field. -/
theorem Writes.struct_at {s : StructDescriptor} {σ ρ : Schema} {step : Schema.Step}
    {place : List Schema.Step} (h : c.Writes (.struct s) σ) (hρ : σ.At (step :: place) ρ) :
    ∃ (f : Field) (value ρ' : Schema), c.typeAt? (.struct s) (step :: place) = c.typeAt? f.type place ∧
      c.Writes f.type value ∧ value.At place ρ' ∧ ρ.SameParts ρ' := by
  obtain ⟨name, f, value, rfl, hf, hvalue, hρ⟩ := h.exists_property hρ
  obtain ⟨ρ₁, hρ₁, hsame₁⟩ := at_require hρ
  obtain ⟨ρ₂, hρ₂, hsame₂⟩ := at_describe hρ₁
  refine ⟨f, value, ρ₂, ?_, hvalue, hρ₂, hsame₁.trans hsame₂⟩
  rw [typeAt?, hf, Option.bind_some]

/-- The reference is to the definition of the struct that the type at the place names. -/
def RefersTo (c : Catalog) (t : FieldType) (place : List Schema.Step) (reference : String) : Prop :=
  ∃ n s, c.typeAt? t place = some (.named n) ∧ c.get? n = some s ∧ s.isDefinition = true ∧
    reference = Schema.referenceStart ++ toString (definitionId s.name).toNat

/-- In a schema without parts there is only itself. -/
theorem at_leaf {σ ρ : Schema} {place : List Schema.Step} (hρ : σ.At place ρ) (hi : σ.items = none)
    (ha : σ.additionalProperties = none) (hp : σ.properties = []) : place = [] ∧ ρ = σ := by
  cases hρ with
  | here => exact ⟨rfl, rfl⟩
  | items h _ => simp [hi] at h
  | additional h _ => simp [ha] at h
  | property h _ => simp [hp] at h

/-- A schema without parts has no reference but itself. -/
theorem not_reference_of_leaf {σ ρ : Schema} {place : List Schema.Step} {reference : String}
    (hρ : σ.At place ρ) (hreference : ρ.reference = some reference) (hσ : σ.reference = none)
    (hi : σ.items = none) (ha : σ.additionalProperties = none) (hp : σ.properties = []) : False := by
  obtain ⟨-, rfl⟩ := at_leaf hρ hi ha hp
  simp [hσ] at hreference

theorem at_referTo {id : UInt64} {ρ : Schema} {place : List Schema.Step} {reference : String}
    (hρ : (Schema.referTo id).At place ρ) (hreference : ρ.reference = some reference) :
    place = [] ∧ reference = Schema.referenceStart ++ toString id.toNat := by
  cases hρ with
  | here => exact ⟨rfl, (Option.some.inj hreference).symm⟩
  | items h _ | additional h _ => cases h
  | property h _ => cases h

/-- In the schema of a list there is the list and what is in the schema of its elements. -/
theorem at_list {σ ρ : Schema} {place : List Schema.Step} (hρ : (Schema.list σ).At place ρ) :
    (place = [] ∧ ρ = .list σ) ∨ ∃ rest, place = .items :: rest ∧ σ.At rest ρ := by
  cases hρ with
  | here => exact .inl ⟨rfl, rfl⟩
  | items h hρ =>
    cases h
    exact .inr ⟨_, rfl, hρ⟩
  | additional h _ | property h _ => cases h

/-- In the schema of a dictionary there is the dictionary and the schema of its values. -/
theorem at_dictionary {ρ : Schema} {place : List Schema.Step} (hρ : Schema.dictionary.At place ρ) :
    (place = [] ∧ ρ = .dictionary) ∨ (place = [.additional] ∧ ρ = .typed "any") := by
  cases hρ with
  | here => exact .inl ⟨rfl, rfl⟩
  | additional h hρ =>
    cases h
    obtain ⟨rfl, rfl⟩ := at_leaf hρ rfl rfl rfl
    exact .inr ⟨rfl, rfl⟩
  | items h _ | property h _ => cases h

/-- What a struct refers to, its name refers to. -/
theorem RefersTo.named {n : TypeName} {s : StructDescriptor} {place : List Schema.Step}
    {reference : String} (h : c.RefersTo (.struct s) place reference) (hn : c.get? n = some s) :
    c.RefersTo (.named n) place reference := by
  obtain ⟨m, t, hat, ht⟩ := h
  cases place with
  | nil => cases hat
  | cons step place => exact ⟨m, t, (typeAt?_named hn step place).trans hat, ht⟩

/-- Every reference in a schema that is written for a type is to the definition that the type at its
place names. -/
theorem Writes.refersTo {t : FieldType} {σ ρ : Schema} {place : List Schema.Step}
    {reference : String} (h : c.Writes t σ) (hρ : σ.At place ρ)
    (hreference : ρ.reference = some reference) : c.RefersTo t place reference := by
  have hleaf : σ.reference = none → σ.items = none → σ.additionalProperties = none →
      σ.properties = [] → c.RefersTo t place reference := fun hr hi ha hp =>
    (not_reference_of_leaf hρ hreference hr hi ha hp).elim
  -- the root of a struct is no reference, and every other place is in the schema of a field
  have hstruct : ∀ s, c.Writes (.struct s) σ → c.RefersTo (.struct s) place reference := by
    intro s hw
    cases place with
    | nil =>
      cases hρ
      simp [hw.struct_keeps.2.2] at hreference
    | cons step place =>
      obtain ⟨f, value, ρ', htype, hvalue, hρ', hsame⟩ := hw.struct_at hρ
      obtain ⟨n, s, hat, hs⟩ := hvalue.refersTo hρ' (hsame.reference.symm.trans hreference)
      exact ⟨n, s, htype.trans hat, hs⟩
  cases h with
  | scalar _ | dateTime _ | unknown _ _ | bytes _ => exact hleaf rfl rfl rfl rfl
  | reference _ hn hs =>
    obtain ⟨rfl, rfl⟩ := at_referTo hρ hreference
    exact ⟨_, _, rfl, hn, hs, rfl⟩
  | inline _ hn _ hw => exact (hstruct _ hw).named hn
  | struct hw => exact hstruct _ (.struct hw)
  | map _ => rcases at_dictionary hρ with ⟨-, rfl⟩ | ⟨-, rfl⟩ <;> cases hreference
  | list =>
    rcases at_list hρ with ⟨-, rfl⟩ | ⟨rest, -, hrest⟩
    · cases hreference
    · exact (not_reference_of_leaf hrest hreference rfl rfl rfl rfl).elim
  | array _ hw =>
    rcases at_list hρ with ⟨-, rfl⟩ | ⟨rest, rfl, hrest⟩
    · cases hreference
    · exact hw.refersTo hrest hreference
termination_by place.length

end Catalog

end ApiDecl
