import ApiDecl.Proofs.RouteSchemas
import ApiDecl.Proofs.Shadowing

/-!
# Proofs: structs written out in place

Compiling follows a type into arrays, visible fields, inline structs and structs that are no
definitions (`Catalog.Visits`), behind a path of structs. Wherever it comes to a name, what it writes
there is what it writes for that name alone: the path decides only whether there is an error, and the
field around adds only its documentation and whether it is required (`Schema.Dressed`).
-/

namespace ApiDecl

open Compile Syntax

/-! ## What a field adds -/

/-- The schema, with what the field around it adds if there is one. -/
inductive Schema.Dressed (σ : Schema) : Schema → Prop
  | bare : Dressed σ σ
  | field (f : Field) : Dressed σ (Catalog.describe f.doc σ)
  | property {f : Field} {name : String} (hf : f.propertyName? = some name) :
      Dressed σ (Catalog.require name f.tag (Catalog.describe f.doc σ))

/-- Up to its description and what is required, a dressed schema is the schema itself. -/
theorem Schema.Dressed.eq {σ ρ : Schema} (h : σ.Dressed ρ) :
    ρ = { σ with description := ρ.description, required := ρ.required } := by
  cases h with
  | bare => cases σ; rfl
  | field f =>
    cases σ
    unfold Catalog.describe
    split <;> rfl
  | property _ =>
    cases σ
    unfold Catalog.require Catalog.describe
    split <;> split <;> rfl

/-- Where a step leads does not depend on what a field adds. -/
theorem Schema.Dressed.at_iff {σ ρ τ : Schema} (h : σ.Dressed ρ) {step : Schema.Step}
    {place : List Schema.Step} : ρ.At (step :: place) τ ↔ σ.At (step :: place) τ := by
  rw [h.eq]
  constructor
  · intro hat
    cases hat with
    | items hi hτ => exact .items hi hτ
    | additional ha hτ => exact .additional ha hτ
    | property hp hτ => exact .property hp hτ
  · intro hat
    cases hat with
    | items hi hτ => exact .items hi hτ
    | additional ha hτ => exact .additional ha hτ
    | property hp hτ => exact .property hp hτ

namespace Catalog

variable {c : Catalog}

/-! ## Where compiling comes to -/

/-- Compiling the type comes, at the place of its schema, to the second type. -/
inductive Visits (c : Catalog) : FieldType → List Schema.Step → FieldType → Prop
  | here (t : FieldType) : Visits c t [] t
  | element {t u : FieldType} {place : List Schema.Step} (ht : t.isByte = false)
      (h : Visits c t place u) : Visits c (.array (some t)) (.items :: place) u
  | property {s : StructDescriptor} {f : Field} {name : String} {u : FieldType}
      {place : List Schema.Step} (hf : lastNamed? s.fields name = some f)
      (h : Visits c f.type place u) : Visits c (.struct s) (.property name :: place) u
  | named {n : TypeName} {s : StructDescriptor} {step : Schema.Step} {place : List Schema.Step}
      {u : FieldType} (hd : n.isDateTime = false) (hn : c.get? n = some s)
      (hs : s.isDefinition = false) (h : Visits c (.struct s) (step :: place) u) :
      Visits c (.named n) (step :: place) u

theorem Visits.eq_of_nil {t u : FieldType} (h : c.Visits t [] u) : t = u := by
  cases h
  rfl

theorem propertyName?_of_lastNamed? {fields : List Field} {name : String} {f : Field}
    (h : lastNamed? fields name = some f) : f.propertyName? = some name :=
  eq_of_beq (List.mem_filter.1 (List.mem_of_getLast? h)).2

/-- The properties of a name in the schema of a struct are one: the dressed schema of the last visible
field with that name. -/
theorem Writes.mem_properties_iff {s : StructDescriptor} {σ : Schema} (h : c.Writes (.struct s) σ)
    {name : String} {f : Field} (hf : lastNamed? s.fields name = some f) :
    ∃ value, c.Writes f.type value ∧
      ∀ τ, (name, τ) ∈ σ.properties ↔ τ = require name f.tag (describe f.doc value) := by
  obtain ⟨schema, hschema, hlookup⟩ := h.lookup_property hf
  obtain ⟨value, hvalue, rfl⟩ := fieldSchema_eq_ok_iff.1 hschema
  refine ⟨value, hvalue, fun τ => ⟨fun hτ => ?_, ?_⟩⟩
  · cases h with
    | struct hw =>
      rcases hw.property_of_mem List.nodup_nil hτ with ⟨g, value', hg, hvalue', rfl⟩ | ⟨hnone, -⟩
      · obtain rfl := Option.some.inj (hf.symm.trans hg)
        rw [hvalue.det hvalue']
      · rw [hf] at hnone
        cases hnone
  · rintro rfl
    exact mem_of_lookup hlookup

/-- The nodes at a place to which compiling comes are the schema of the type there, dressed. -/
theorem Visits.node {t u : FieldType} {place : List Schema.Step} (h : c.Visits t place u)
    {σ : Schema} (hσ : c.Writes t σ) :
    ∃ τ, c.Writes u τ ∧ (∃ ρ, σ.At place ρ) ∧ ∀ ρ, σ.At place ρ → τ.Dressed ρ := by
  induction h generalizing σ with
  | here t =>
    refine ⟨σ, hσ, ⟨σ, .here σ⟩, fun ρ hρ => ?_⟩
    cases hρ
    exact .bare
  | element ht _ ih =>
    obtain ⟨element, hw, rfl⟩ := hσ.exists_element ht
    obtain ⟨τ, hτ, ⟨ρ, hρ⟩, hall⟩ := ih hw
    refine ⟨τ, hτ, ⟨ρ, .items rfl hρ⟩, fun ρ' hρ' => ?_⟩
    cases hρ' with
    | items hi hρ' =>
      cases hi
      exact hall ρ' hρ'
  | @property s f name u place hf h ih =>
    obtain ⟨value, hvalue, hmem⟩ := hσ.mem_properties_iff hf
    obtain ⟨τ, hτ, ⟨ρ, hρ⟩, hall⟩ := ih hvalue
    have hdressed : value.Dressed (require name f.tag (describe f.doc value)) :=
      .property (propertyName?_of_lastNamed? hf)
    have hproperty := (hmem _).2 rfl
    cases place with
    | nil =>
      -- the field is around the visited type itself
      obtain rfl := h.eq_of_nil
      obtain rfl := hτ.det hvalue
      refine ⟨τ, hτ, ⟨_, .property hproperty (.here _)⟩, fun ρ' hρ' => ?_⟩
      cases hρ' with
      | property hp hρ' =>
        cases hρ'
        rw [(hmem _).1 hp]
        exact hdressed
    | cons step place =>
      refine ⟨τ, hτ, ⟨ρ, .property hproperty (hdressed.at_iff.2 hρ)⟩, fun ρ' hρ' => ?_⟩
      cases hρ' with
      | property hp hρ' =>
        rw [(hmem _).1 hp] at hρ'
        exact hall ρ' (hdressed.at_iff.1 hρ')
  | named hd hn hs _ ih =>
    rcases hσ.reference_or_inline hd hn with ⟨hs', -⟩ | ⟨-, hw⟩
    · simp [hs] at hs'
    · exact ih hw

/-! ## What compiling emits -/

/-- The body is the schema of a request or an answer in some routes, for this name. -/
def EmitsBody (c : Catalog) (n : TypeName) (σ : Schema) : Prop :=
  ∃ files groups, (c.groups files).result = .ok groups ∧ ∃ g ∈ groups, ∃ r ∈ g.routes,
    (r.input = some n ∧ r.requestBody = some σ) ∨ (r.output = some n ∧ r.response = some σ)

/-- The parameter at some place of some routes is that of the field of the request. -/
def EmitsParameter (c : Catalog) (f : Field) (σ : Schema) : Prop :=
  ∃ files groups, (c.groups files).result = .ok groups ∧ ∃ g ∈ groups, ∃ r ∈ g.routes,
    ∃ (s : StructDescriptor) (place : ParameterPlace) (i : Nat) (q : Parameter),
      r.input.bind c.get? = some s ∧ (s.parameterFields place)[i]? = some f ∧
      ((r.parameters.get? place).getD [])[i]? = some q ∧ q.schema = σ

/-- The schema is one that compiling gives for the type: on any path of structs around it, or as a
whole that is asked for or that is part of a route. -/
inductive Emits (c : Catalog) : FieldType → Schema → Prop
  | type {path : List String} {t : FieldType} {σ : Schema} (h : (c.typeSchema path t).result = .ok σ) :
      Emits c t σ
  | object {path : List String} {s : StructDescriptor} {σ : Schema}
      (h : (c.objectSchema path s).result = .ok σ) : Emits c (.struct s) σ
  | field {f : Field} {σ : Schema} (h : (c.fieldSchema f).result = .ok σ) : Emits c f.type σ
  | struct {s : StructDescriptor} {name : Option String} {σ : Schema} (hs : s.isDefinition = false)
      (h : (c.structSchema s name).result = .ok σ) : Emits c (.struct s) σ
  | definition {defs : List Definition} {d : Definition} {s : StructDescriptor}
      (h : c.definitions.result = .ok defs) (hd : d ∈ defs) (hs : c.find? d.name = some s) :
      Emits c (.struct s) d.schema
  | parameter {f : Field} {σ : Schema} (h : c.EmitsParameter f σ) : Emits c f.type σ
  | body {n : TypeName} {σ : Schema} (hd : n.isDateTime = false) (h : c.EmitsBody n σ) :
      Emits c (.named n) σ
  | bodyStruct {n : TypeName} {s : StructDescriptor} {σ : Schema} (hn : c.get? n = some s)
      (hs : s.isDefinition = false) (h : c.EmitsBody n σ) : Emits c (.struct s) σ

/-- The schema of a body is that of its struct: a reference if the struct is a definition. -/
theorem EmitsBody.compiled {n : TypeName} {σ : Schema} (h : c.EmitsBody n σ) :
    ∃ s, c.get? n = some s ∧ (c.bodySchema s).result = .ok σ := by
  obtain ⟨files, groups, hgroups, g, hg, r, hr, hbody⟩ := h
  have hcompiled := groups_yield c files #[] groups hgroups g hg r hr
  rcases hbody with ⟨hinput, hσ⟩ | ⟨houtput, hσ⟩
  · have hrequest := hcompiled.requestBody
    rw [hinput] at hrequest
    obtain ⟨s, hs, hschema⟩ := exists_of_rel_some hrequest hσ
    split at hs
    · cases hs
    · exact ⟨s, hs, hschema⟩
  · have hresponse := hcompiled.response
    rw [houtput] at hresponse
    obtain ⟨s, hs, hschema⟩ := exists_of_rel_some hresponse hσ
    exact ⟨s, hs, hschema⟩

theorem EmitsParameter.compiled {f : Field} {σ : Schema} (h : c.EmitsParameter f σ) :
    (c.fieldSchema f).result = .ok σ := by
  obtain ⟨files, groups, hgroups, g, hg, r, hr, s, place, i, q, hinput, hf, hq, rfl⟩ := h
  have hparameters := (groups_yield c files #[] groups hgroups g hg r hr).parameters place
  rw [hinput, Option.elim_some] at hparameters
  obtain ⟨hi, hf⟩ := List.getElem?_eq_some_iff.1 hf
  obtain ⟨hi', hq⟩ := List.getElem?_eq_some_iff.1 hq
  have hparameter := List.Forall₂.get hparameters hi hi'
  rw [List.get_eq_getElem, List.get_eq_getElem, hf, hq] at hparameter
  exact hparameter.schema

/-- What compiling emits is a schema that is written for the type, dressed if it is that of a field. -/
theorem Emits.written (hc : c.Ordered) {t : FieldType} {σ : Schema} (h : c.Emits t σ) :
    ∃ value, c.Writes t value ∧ value.Dressed σ := by
  have hfield : ∀ f : Field, (c.fieldSchema f).result = .ok σ →
      ∃ value, c.Writes f.type value ∧ value.Dressed σ := by
    intro f hf
    obtain ⟨value, hvalue, rfl⟩ := fieldSchema_eq_ok_iff.1 hf
    exact ⟨value, hvalue, .field f⟩
  cases h with
  | type h => exact ⟨σ, writes_of_typeSchema h, .bare⟩
  | object h => exact ⟨σ, writes_of_objectSchema h, .bare⟩
  | field h => exact hfield _ h
  | struct hs h =>
    rw [structSchema_plain c hs] at h
    exact ⟨σ, writes_of_inlineSchema h, .bare⟩
  | definition h hd hs =>
    obtain ⟨s', hs', -, hname, hw⟩ := exists_of_mem_right (definitions_written h) hd
    have hfind := hc.find? (mem_definitions.1 hs').1
    obtain rfl := Option.some.inj (hs.symm.trans (hname ▸ hfind))
    exact ⟨_, hw, .bare⟩
  | parameter h => exact hfield _ h.compiled
  | body hd h =>
    obtain ⟨s, hn, hschema⟩ := h.compiled
    rcases bodySchema_written hschema with ⟨hs, rfl⟩ | ⟨hs, hw⟩
    · exact ⟨_, .reference hd hn hs, .bare⟩
    · exact ⟨σ, .inline hd hn hs hw, .bare⟩
  | bodyStruct hn hs h =>
    obtain ⟨s', hn', hschema⟩ := h.compiled
    obtain rfl := Option.some.inj (hn.symm.trans hn')
    rcases bodySchema_written hschema with ⟨hs', -⟩ | ⟨-, hw⟩
    · simp [hs] at hs'
    · exact ⟨σ, hw, .bare⟩

/-- A schema that is written for a name of a struct is the one that the struct has by itself. -/
theorem structSchema_of_writes {T : StructDescriptor} (hT : c.find? T.name = some T)
    (hplain : T.isDefinition = false) (hname : T.name ∉ TypeName.dateTimeNames) {n : TypeName}
    (hn : n.base = T.name) {σ : Schema} (hσ : c.Writes (.named n) σ) :
    (c.structSchema T (some T.name)).result = .ok σ := by
  have hget : c.get? n = some T := by rw [get?, hn, hT]
  rw [structSchema_plain c hplain]
  refine (inlineSchema_eq_ok_iff hT).2 ?_
  have hd : n.isDateTime = false := by
    rw [TypeName.isDateTime, hn, ← Bool.not_eq_true, List.contains_iff_mem]
    exact hname
  rcases hσ.reference_or_inline hd hget with ⟨hs, -⟩ | ⟨-, hw⟩
  · simp [hplain] at hs
  · exact hw

/-- Structs are written out in place without regard to what is around them. For a struct that is no
definition and has no date-time name: on every path, what compiling a name of it gives is the schema
that it has by itself; and in everything that compiling emits, that schema stands wherever compiling
came to a name of it, up to the description and the requirement that the field around adds. -/
theorem inlining_context_free (c : Catalog) (hc : c.Ordered) {T : StructDescriptor}
    (hT : T ∈ c.structs) (hplain : T.isDefinition = false)
    (hname : T.name ∉ TypeName.dateTimeNames) {n : TypeName} (hn : n.base = T.name) :
    (∀ path σ, (c.typeSchema path (.named n)).result = .ok σ →
      (c.structSchema T (some T.name)).result = .ok σ) ∧
    ∀ t σ place, c.Emits t σ → c.Visits t place (.named n) →
      ∃ τ, (c.structSchema T (some T.name)).result = .ok τ ∧ (∃ ρ, σ.At place ρ) ∧
        ∀ ρ, σ.At place ρ → τ.Dressed ρ ∧
          ρ = { τ with description := ρ.description, required := ρ.required } := by
  have hfind := hc.find? hT
  refine ⟨fun path σ hσ => ?_, fun t σ place hemits hvisits => ?_⟩
  · exact structSchema_of_writes hfind hplain hname hn (writes_of_typeSchema hσ)
  · obtain ⟨value, hvalue, hdressed⟩ := hemits.written hc
    obtain ⟨τ, hτ, ⟨ρ, hρ⟩, hall⟩ := hvisits.node hvalue
    have hschema := structSchema_of_writes hfind hplain hname hn hτ
    cases place with
    | nil =>
      -- the whole schema is that of the name, and nothing but the outermost field dresses it
      obtain rfl := hvisits.eq_of_nil
      obtain rfl := hvalue.det hτ
      refine ⟨value, hschema, ⟨σ, .here σ⟩, fun ρ' hρ' => ?_⟩
      cases hρ'
      exact ⟨hdressed, hdressed.eq⟩
    | cons step place =>
      refine ⟨τ, hschema, ⟨ρ, hdressed.at_iff.2 hρ⟩, fun ρ' hρ' => ?_⟩
      have hnode := hall ρ' (hdressed.at_iff.1 hρ')
      exact ⟨hnode, hnode.eq⟩

/-- A required field of a type. -/
def requiredField (name : String) (type : FieldType) : Field :=
  ⟨name, type, ⟨[("json", name), ("binding", "required")]⟩, "The " ++ name ++ ".", true⟩

/-- A struct for authors. -/
def author : StructDescriptor :=
  ⟨"Author", [requiredField "name" (.scalar .string)], false, []⟩

/-- An inline struct that names the author from another module. -/
def credits : StructDescriptor :=
  ⟨"object", [requiredField "author" (.named ⟨["people"], "Author"⟩)], false, []⟩

/-- A struct for books. -/
def book : StructDescriptor := ⟨"Book", [requiredField "credits" (.struct credits)], false, []⟩

/-- A struct with a list of books. -/
def shelf : StructDescriptor :=
  ⟨"Shelf", [requiredField "books" (.array (some (.named ⟨[], "Book"⟩)))], false, []⟩

/-- Shelves of books with their authors. -/
def shelves : Catalog := ⟨[author, book, shelf]⟩

/-- The schema of an author stands in the schema of a shelf: in the list of books, in the inline
struct. -/
theorem shelf_shows_author : ∃ σ τ ρ,
    (shelves.structSchema shelf (some "Shelf")).result = .ok σ ∧
    (shelves.structSchema author (some "Author")).result = .ok τ ∧
    σ.At [.property "books", .items, .property "credits", .property "author"] ρ ∧
    τ.Dressed ρ := by
  have hname : ∀ name ∈ ["name", "author", "credits", "books"], ∀ type,
      (requiredField name type).propertyName? = some name := by
    have hnames : ∀ name ∈ ["name", "author", "credits", "books"],
        (⟨[("json", name), ("binding", "required")]⟩ : Tag).schemaName? = some name := by
      decide +kernel
    intro name hmem type
    have hvisible : (requiredField name type).propertyName? =
        (requiredField name type).tag.schemaName? := if_pos rfl
    exact hvisible.trans (hnames name hmem)
  have hlast : ∀ name ∈ ["name", "author", "credits", "books"], ∀ type,
      lastNamed? [requiredField name type] name = some (requiredField name type) := by
    intro name hmem type
    exact lastNamed?_of_unique (List.mem_singleton_self _) (hname name hmem type)
      fun g hg _ => List.mem_singleton.1 hg
  have hstruct : ∀ s name type, s.fields = [requiredField name type] →
      name ∈ ["name", "author", "credits", "books"] → (∃ σ, shelves.Writes type σ) →
      ∃ σ, shelves.Writes (.struct s) σ := by
    rintro s name type hs hmem ⟨σ, hσ⟩
    have hfields := @WritesFields.property shelves (.typed "object") _ _ _ [] name
      (hname name hmem type) hσ (.done _)
    rw [← hs] at hfields
    exact ⟨_, .struct hfields⟩
  obtain ⟨_, hauthor⟩ := hstruct author "name" _ rfl (by decide) ⟨_, .scalar .string⟩
  obtain ⟨_, hcredits⟩ := hstruct credits "author" _ rfl (by decide) ⟨_, .inline rfl rfl rfl hauthor⟩
  obtain ⟨_, hbook⟩ := hstruct book "credits" _ rfl (by decide) ⟨_, hcredits⟩
  obtain ⟨_, hshelf⟩ := hstruct shelf "books" _ rfl (by decide)
    ⟨_, .array rfl (.inline rfl rfl rfl hbook)⟩
  have hσ := (inlineSchema_eq_ok_iff (s := shelf) rfl).2 hshelf
  rw [← structSchema_plain shelves rfl] at hσ
  have hvisits : shelves.Visits (.struct shelf)
      [.property "books", .items, .property "credits", .property "author"]
      (.named ⟨["people"], "Author"⟩) :=
    .property (hlast "books" (by decide) _) (.element rfl (.named rfl rfl rfl
      (.property (hlast "credits" (by decide) _)
        (.property (hlast "author" (by decide) _) (.here _)))))
  obtain ⟨-, hemitted⟩ := inlining_context_free shelves (by decide) (T := author)
    List.mem_cons_self rfl (by decide) (n := ⟨["people"], "Author"⟩) rfl
  obtain ⟨τ, hτ, ⟨ρ, hρ⟩, hall⟩ := hemitted _ _ _ (.struct rfl hσ) hvisits
  exact ⟨_, τ, ρ, hσ, hτ, hρ, (hall ρ hρ).1⟩

end Catalog

end ApiDecl
