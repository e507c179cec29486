import ApiDecl.Proofs.InPlace
import ApiDecl.Proofs.References

/-!
# Proofs: the vocabulary of schemas

Every node of a schema that a compilation gives has one of seven forms (`Schema.Form`). What it has
beside its form is a description, and the name of the property whose value it is if that is required.
This holds at every place of the definitions, of the parameters and of the bodies
(`compile_vocabulary`).
-/

namespace ApiDecl

open Compile Syntax

/-! ## Forms of nodes -/

namespace Schema

/-- What a node is, its description and what is required apart. -/
inductive Form where
  /-- A node that says nothing. -/
  | anything
  /-- Values of a kind. -/
  | scalar (kind : ScalarKind)
  /-- Points in time. -/
  | dateTime
  /-- Objects with any values. -/
  | dictionary
  /-- Lists with a node for their elements. -/
  | list (items : Schema)
  /-- Objects with properties and their order. -/
  | object (order : List String) (properties : List (String × Schema))
  /-- What another schema is referred to for. -/
  | reference (target : String)

/-- The bare node of a form. -/
def Form.schema : Form → Schema
  | anything => {}
  | scalar kind => { type := some kind.name }
  | dateTime => { type := some "string", format := some "date-time" }
  | dictionary => { type := some "object", additionalProperties := some { type := some "any" } }
  | list items => { type := some "array", items := some items }
  | object order properties => { type := some "object", order, properties }
  | reference target => { type := some "object", reference := some target }

/-- The schema has the form, apart from its description and what is required. -/
def HasForm (ρ : Schema) (form : Form) : Prop :=
  ρ = { form.schema with description := ρ.description, required := ρ.required }

/-- The node at a place has exactly one of the forms, and it requires nothing but the property that
it is the value of. -/
structure IsNodeAt (place : List Step) (ρ : Schema) : Prop where
  form : ∃! form, ρ.HasForm form
  required : ρ.required = [] ∨
    ∃ name, place.getLast? = some (.property name) ∧ ρ.required = [name]

/-- What stands at a place is a node, or the part of a dictionary that admits any value. -/
def IsWordAt (place : List Step) (ρ : Schema) : Prop :=
  if place.getLast? = some .additional then ρ = { type := some "any" } else ρ.IsNodeAt place

/-- A node has one form at most. -/
theorem HasForm.unique {ρ : Schema} {a b : Form} (ha : ρ.HasForm a) (hb : ρ.HasForm b) : a = b := by
  have hkind : ∀ k k' : ScalarKind, k.name = k'.name → k = k' := by
    intro k k' h
    cases k <;> cases k' <;> first | rfl | exact absurd h (by decide)
  have hother : ∀ k : ScalarKind, k.name ≠ "object" ∧ k.name ≠ "array" ∧
      "object" ≠ k.name ∧ "array" ≠ k.name := by
    intro k
    cases k <;> decide
  have hsame := ha.symm.trans hb
  cases a <;> cases b <;> simp [Form.schema, hother] at hsame ⊢
  case scalar.scalar k k' => exact hkind k k' hsame
  case list.list => exact hsame
  case object.object => exact hsame
  case reference.reference => exact hsame

theorem HasForm.isNodeAt {ρ : Schema} {form : Form} {place : List Step} (h : ρ.HasForm form)
    (hrequired : ρ.required = [] ∨
      ∃ name, place.getLast? = some (.property name) ∧ ρ.required = [name]) : ρ.IsNodeAt place :=
  ⟨⟨form, h, fun _ h' => h'.unique h⟩, hrequired⟩

/-- The bare node of a form is a node at every place. -/
theorem Form.isNodeAt (form : Form) (place : List Step) : form.schema.IsNodeAt place := by
  have hbare : form.schema.description = "" ∧ form.schema.required = [] := by
    cases form <;> exact ⟨rfl, rfl⟩
  have hform : form.schema.HasForm form := by
    unfold HasForm
    rw [hbare.1, hbare.2]
    cases form <;> rfl
  exact hform.isNodeAt (.inl hbare.2)

theorem IsNodeAt.isWordAt {place : List Step} {ρ : Schema} (h : ρ.IsNodeAt place)
    (hplace : place.getLast? ≠ some .additional) : ρ.IsWordAt place := by
  rw [IsWordAt, if_neg hplace]
  exact h

/-- What is a node in itself is one behind a step to it. -/
theorem IsWordAt.step {place : List Step} {ρ : Schema} (h : ρ.IsWordAt place) {step : Step}
    (hstep : step ≠ .additional) : ρ.IsWordAt (step :: place) := by
  cases place with
  | nil =>
    rw [IsWordAt, if_neg (by simp)] at h
    obtain ⟨⟨form, hform, -⟩, hrequired⟩ := h
    have hnothing : ρ.required = [] := by
      rcases hrequired with hnothing | ⟨name, hlast, -⟩
      · exact hnothing
      · cases hlast
    exact (hform.isNodeAt (.inl hnothing)).isWordAt (by simpa using hstep)
  | cons next rest =>
    have hlast : (step :: next :: rest).getLast? = (next :: rest).getLast? := by simp
    unfold IsWordAt at h ⊢
    rw [hlast]
    by_cases hadditional : (next :: rest).getLast? = some .additional
    · rw [if_pos hadditional] at h ⊢
      exact h
    · rw [if_neg hadditional] at h ⊢
      exact ⟨h.form, by rw [hlast]; exact h.required⟩

/-- A description does not change the form. -/
theorem Form.describe (form : Form) (doc : String) :
    (Catalog.describe doc form.schema).HasForm form ∧
      (Catalog.describe doc form.schema).required = [] := by
  unfold Catalog.describe HasForm
  by_cases hdoc : doc.isEmpty = true
  · rw [if_pos hdoc]
    cases form <;> exact ⟨rfl, rfl⟩
  · rw [if_neg hdoc]
    cases form <;> exact ⟨rfl, rfl⟩

/-- A node that a field is around is the value of its property. -/
theorem Form.isNodeAt_property (form : Form) (name doc : String) (tag : Tag) :
    (Catalog.require name tag (Catalog.describe doc form.schema)).IsNodeAt [.property name] := by
  obtain ⟨hform, hrequired⟩ := form.describe doc
  by_cases htag : tag.isRequired = true
  · rw [Catalog.require, if_pos htag]
    have hrequire : ({ Catalog.describe doc form.schema with required := [name] } :
        Schema).HasForm form := by
      rw [HasForm] at hform ⊢
      rw [hform]
    exact hrequire.isNodeAt (.inr ⟨name, rfl, rfl⟩)
  · rw [Catalog.require, if_neg htag]
    exact hform.isNodeAt (.inl hrequired)

end Schema

/-! ## Written schemas -/

namespace Catalog

variable {c : Catalog}

/-- Fields add to the order and to the properties only. -/
theorem WritesFields.eq_start {start schema : Schema} {fields : List Field}
    (h : c.WritesFields start fields schema) :
    schema = { start with order := schema.order, properties := schema.properties } := by
  match h with
  | .done _ =>
    cases start
    rfl
  | .hidden _ hw => exact hw.eq_start
  | .property _ _ hw => exact hw.eq_start

/-- What is written for a type is the bare node of a form. -/
theorem Writes.exists_form {t : FieldType} {σ : Schema} (h : c.Writes t σ) :
    ∃ form : Schema.Form, σ = form.schema := by
  have hstruct : ∀ s, c.Writes (.struct s) σ → ∃ form : Schema.Form, σ = form.schema := by
    intro s hs
    cases hs with
    | struct hw => exact ⟨.object σ.order σ.properties, hw.eq_start⟩
  cases h with
  | scalar s => exact ⟨.scalar s.kind, rfl⟩
  | dateTime _ => exact ⟨.dateTime, rfl⟩
  | unknown _ _ => exact ⟨.anything, rfl⟩
  | reference _ _ _ => exact ⟨.reference _, rfl⟩
  | inline _ _ _ hw => exact hstruct _ hw
  | map _ => exact ⟨.dictionary, rfl⟩
  | list => exact ⟨.list .empty, rfl⟩
  | bytes _ => exact ⟨.scalar .string, rfl⟩
  | @array _ schema _ _ => exact ⟨.list schema, rfl⟩
  | struct hw => exact hstruct _ (.struct hw)

/-- What stands at a place of a schema that is written for a type belongs to the vocabulary. -/
theorem Writes.isWordAt {t : FieldType} {σ ρ : Schema} {place : List Schema.Step}
    (h : c.Writes t σ) (hρ : σ.At place ρ) : ρ.IsWordAt place := by
  match place with
  | [] =>
    cases hρ
    obtain ⟨form, rfl⟩ := h.exists_form
    exact (form.isNodeAt []).isWordAt (by simp)
  | step :: rest =>
    -- every step into a struct that is written out leads to the value of a property
    have hstruct : ∀ s, c.Writes (.struct s) σ → ρ.IsWordAt (step :: rest) := by
      intro s hs
      obtain ⟨name, f, value, rfl, hf, hvalue, hρ⟩ := hs.exists_property hρ
      cases rest with
      | nil =>
        cases hρ
        obtain ⟨form, rfl⟩ := hvalue.exists_form
        exact (form.isNodeAt_property name f.doc f.tag).isWordAt (by simp)
      | cons next rest =>
        have hdressed : value.Dressed (require name f.tag (describe f.doc value)) :=
          .property (propertyName?_of_lastNamed? hf)
        have hword := hvalue.isWordAt (hdressed.at_iff.1 hρ)
        exact hword.step (by simp)
    have hleaf : σ.items = none → σ.additionalProperties = none → σ.properties = [] →
        ρ.IsWordAt (step :: rest) := by
      intro hi ha hp
      obtain ⟨hplace, -⟩ := at_leaf hρ hi ha hp
      cases hplace
    cases h with
    | scalar _ | dateTime _ | unknown _ _ | reference _ _ _ | bytes _ => exact hleaf rfl rfl rfl
    | inline _ _ _ hw => exact hstruct _ hw
    | struct hw => exact hstruct _ (.struct hw)
    | map _ =>
      rcases at_dictionary hρ with ⟨hplace, -⟩ | ⟨hplace, rfl⟩
      · cases hplace
      · cases hplace
        rw [Schema.IsWordAt, if_pos (by simp)]
        rfl
    | list =>
      rcases at_list hρ with ⟨hplace, -⟩ | ⟨rest, hplace, hrest⟩
      · cases hplace
      · cases hplace
        obtain ⟨rfl, rfl⟩ := at_leaf hrest rfl rfl rfl
        exact (Schema.Form.anything.isNodeAt [.items]).isWordAt (by simp)
    | array _ hw =>
      rcases at_list hρ with ⟨hplace, -⟩ | ⟨rest, hplace, hrest⟩
      · cases hplace
      · cases hplace
        exact (hw.isWordAt hrest).step (by simp)
termination_by place.length

theorem fieldSchema_isWordAt {f : Field} {σ ρ : Schema} {place : List Schema.Step}
    (h : (c.fieldSchema f).result = .ok σ) (hρ : σ.At place ρ) : ρ.IsWordAt place := by
  obtain ⟨value, hvalue, rfl⟩ := fieldSchema_eq_ok_iff.1 h
  cases place with
  | nil =>
    cases hρ
    obtain ⟨form, rfl⟩ := hvalue.exists_form
    obtain ⟨hform, hrequired⟩ := form.describe f.doc
    exact (hform.isNodeAt (.inl hrequired)).isWordAt (by simp)
  | cons step rest => exact hvalue.isWordAt ((Schema.Dressed.field f).at_iff.1 hρ)

theorem bodySchema_isWordAt {s : StructDescriptor} {σ ρ : Schema} {place : List Schema.Step}
    (h : (c.bodySchema s).result = .ok σ) (hρ : σ.At place ρ) : ρ.IsWordAt place := by
  rcases bodySchema_written h with ⟨-, rfl⟩ | ⟨-, hw⟩
  · obtain ⟨rfl, rfl⟩ := at_leaf hρ rfl rfl rfl
    exact ((Schema.Form.reference _).isNodeAt []).isWordAt (by simp)
  · exact hw.isWordAt hρ

end Catalog

/-! ## Compilations -/

/-- The schema is one of the compilation: that of a definition, of a parameter or of a body. -/
inductive Compilation.Holds (k : Compilation) : Schema → Prop
  | definition {d : Definition} (hd : d ∈ k.definitions) : Holds k d.schema
  | parameter {g : RouteGroup} {r : Route} {place : ParameterPlace} {parameters : List Parameter}
      {q : Parameter} (hg : g ∈ k.groups) (hr : r ∈ g.routes)
      (hplace : r.parameters.get? place = some parameters) (hq : q ∈ parameters) : Holds k q.schema
  | requestBody {g : RouteGroup} {r : Route} {σ : Schema} (hg : g ∈ k.groups) (hr : r ∈ g.routes)
      (hσ : r.requestBody = some σ) : Holds k σ
  | response {g : RouteGroup} {r : Route} {σ : Schema} (hg : g ∈ k.groups) (hr : r ∈ g.routes)
      (hσ : r.response = some σ) : Holds k σ

/-- Every node at every place of the schemas of a compilation belongs to the vocabulary. -/
theorem compile_vocabulary {files : List SourceFile} {k : Compilation}
    (h : (compile files).result = .ok k) :
    ∀ σ, k.Holds σ → ∀ place ρ, σ.At place ρ → ρ.IsWordAt place := by
  obtain ⟨-, -, hdefs, hgroups⟩ := compile_yields files #[] k h
  intro σ hσ place ρ hρ
  cases hσ with
  | definition hd =>
    obtain ⟨s, -, -, -, hw⟩ := exists_of_mem_right (Catalog.definitions_written hdefs) hd
    exact hw.isWordAt hρ
  | @parameter g r location parameters q hg hr hplace hq =>
    have hparameters := (hgroups g hg r hr).parameters location
    rw [hplace, Option.getD_some] at hparameters
    obtain ⟨f, -, hf⟩ := exists_of_mem_right hparameters hq
    exact Catalog.fieldSchema_isWordAt hf.schema hρ
  | requestBody hg hr hbody =>
    obtain ⟨s, -, hschema⟩ := exists_of_rel_some (hgroups _ hg _ hr).requestBody hbody
    exact Catalog.bodySchema_isWordAt hschema hρ
  | response hg hr hbody =>
    obtain ⟨s, -, hschema⟩ := exists_of_rel_some (hgroups _ hg _ hr).response hbody
    exact Catalog.bodySchema_isWordAt hschema hρ

/-- The schemas of the blog, of which there are some, are of the vocabulary. -/
theorem blog_vocabulary : ∃ k, (compile blog).result = .ok k ∧
    ∀ σ, k.Holds σ → ∀ place ρ, σ.At place ρ → ρ.IsWordAt place := by
  obtain ⟨k, events, h⟩ := blog_compiles
  have hk : (compile blog).result = .ok k := congrArg Prod.fst h
  exact ⟨k, hk, compile_vocabulary hk⟩

end ApiDecl
