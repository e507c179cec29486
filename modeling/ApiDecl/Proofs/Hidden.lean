import ApiDecl.Proofs.Writing
import ApiDecl.Route.Collect
import Mathlib.Data.Option.Basic

/-!
# Proofs: fields that are not visible

Two tables show the same if they differ only in what their hidden fields hold: the types, tags and
documentation of fields that are not visible, at any depth (`Catalog.ShowsSame`). Compiling goes
through both in step and never opens a hidden field, so it gives the same schemas and the same
routes, or fails with the same error, and reports the same events.
-/

namespace ApiDecl

/-! ## The relation -/

mutual

/-- The types are the same but for what hidden fields hold. -/
inductive TypesShowSame : FieldType → FieldType → Prop
  | scalar (s : Scalar) : TypesShowSame (.scalar s) (.scalar s)
  | named (n : TypeName) : TypesShowSame (.named n) (.named n)
  | list : TypesShowSame (.array none) (.array none)
  | array {t u : FieldType} (h : TypesShowSame t u) :
      TypesShowSame (.array (some t)) (.array (some u))
  | dictionary : TypesShowSame (.map none) (.map none)
  | map {t u : FieldType} (h : TypesShowSame t u) : TypesShowSame (.map (some t)) (.map (some u))
  | struct {s s' : StructDescriptor} (h : StructsShowSame s s') :
      TypesShowSame (.struct s) (.struct s')

/-- The structs are the same but for what hidden fields hold. -/
inductive StructsShowSame : StructDescriptor → StructDescriptor → Prop
  | ofFields (name : String) (isDefinition : Bool) (embeds : List String)
      {fields fields' : List Field} (h : FieldsShowSame fields fields') :
      StructsShowSame ⟨name, fields, isDefinition, embeds⟩ ⟨name, fields', isDefinition, embeds⟩

/-- The fields are the same but for what hidden ones hold. -/
inductive FieldsShowSame : List Field → List Field → Prop
  | nil : FieldsShowSame [] []
  | visible (name : String) (tag : Tag) (doc : String) {t u : FieldType} {rest rest' : List Field}
      (ht : TypesShowSame t u) (h : FieldsShowSame rest rest') :
      FieldsShowSame (⟨name, t, tag, doc, true⟩ :: rest) (⟨name, u, tag, doc, true⟩ :: rest')
  | hidden (name : String) {t u : FieldType} {tag tag' : Tag} {doc doc' : String}
      {rest rest' : List Field} (h : FieldsShowSame rest rest') :
      FieldsShowSame (⟨name, t, tag, doc, false⟩ :: rest) (⟨name, u, tag', doc', false⟩ :: rest')

end

/-- The tables have the same structs but for what hidden fields hold. -/
def Catalog.ShowsSame (c c' : Catalog) : Prop := List.Forall₂ StructsShowSame c.structs c'.structs

/-- What two visible fields that show the same have in common. -/
structure Field.ShowsSame (f g : Field) : Prop where
  name : f.name = g.name
  tag : f.tag = g.tag
  doc : f.doc = g.doc
  type : TypesShowSame f.type g.type

section

variable {s s' : StructDescriptor}

theorem StructsShowSame.name_eq (h : StructsShowSame s s') : s.name = s'.name := by
  cases h
  rfl

theorem StructsShowSame.isDefinition_eq (h : StructsShowSame s s') :
    s.isDefinition = s'.isDefinition := by
  cases h
  rfl

theorem StructsShowSame.fields (h : StructsShowSame s s') : FieldsShowSame s.fields s'.fields := by
  cases h with
  | ofFields _ _ _ hfields => exact hfields

theorem TypesShowSame.isByte_eq {t u : FieldType} (h : TypesShowSame t u) :
    t.isByte = u.isByte := by
  cases h <;> rfl

theorem FieldsShowSame.filter {fields fields' : List Field} (h : FieldsShowSame fields fields') :
    List.Forall₂ Field.ShowsSame (fields.filter (·.exported)) (fields'.filter (·.exported)) := by
  match h with
  | .nil => exact .nil
  | .visible name tag doc ht h => exact .cons ⟨rfl, rfl, rfl, ht⟩ h.filter
  | .hidden name h => exact h.filter

/-- A field stands across from one that is a property under the same name or hidden like it. -/
theorem FieldsShowSame.of_cons {f : Field} {rest fields' : List Field}
    (h : FieldsShowSame (f :: rest) fields') :
    ∃ g rest', fields' = g :: rest' ∧ FieldsShowSame rest rest' ∧
      f.propertyName? = g.propertyName? ∧ (f.propertyName?.isSome → f.ShowsSame g) := by
  cases h with
  | visible name tag doc ht h =>
    exact ⟨_, _, rfl, h, by simp only [Field.propertyName?], fun _ => ⟨rfl, rfl, rfl, ht⟩⟩
  | hidden name h =>
    refine ⟨_, _, rfl, h, by simp [Field.propertyName?], fun hf => ?_⟩
    simp [Field.propertyName?] at hf

end

namespace Catalog

open Syntax

variable {c c' : Catalog}

/-- A name denotes structs that show the same, or nothing in both tables. -/
theorem ShowsSame.get? (hc : c.ShowsSame c') (n : TypeName) :
    (c.get? n = none ∧ c'.get? n = none) ∨
      ∃ s s', c.get? n = some s ∧ c'.get? n = some s' ∧ StructsShowSame s s' := by
  unfold ShowsSame at hc
  unfold Catalog.get? Catalog.find?
  generalize c.structs = structs at hc
  generalize c'.structs = structs' at hc
  induction hc with
  | nil => exact .inl ⟨rfl, rfl⟩
  | cons h _ ih =>
    rw [List.find?_cons, List.find?_cons, h.name_eq]
    split
    · exact .inr ⟨_, _, rfl, rfl, h⟩
    · exact ih

/-! ## Schemas -/

mutual

/-- Structs that show the same are written out the same. -/
theorem objectSchema_showsSame (hc : c.ShowsSame c') (path : List String)
    {s s' : StructDescriptor} (h : StructsShowSame s s') :
    c.objectSchema path s = c'.objectSchema path s' := by
  match s with
  | ⟨name, fields, isDefinition, embeds⟩ =>
    rw [objectSchema_eq, objectSchema_eq]
    exact propertySchemas_showsSame hc path _ h.fields
termination_by (c.remaining path, sizeOf s)

/-- Fields that show the same add the same properties: hidden ones are passed over on both sides. -/
theorem propertySchemas_showsSame (hc : c.ShowsSame c') (path : List String) (start : Schema)
    {fields fields' : List Field} (h : FieldsShowSame fields fields') :
    c.propertySchemas path start fields = c'.propertySchemas path start fields' := by
  match fields with
  | [] =>
    cases h
    rw [propertySchemas_nil, propertySchemas_nil]
  | ⟨fieldName, type, tag, doc, exported⟩ :: rest =>
    obtain ⟨g, rest', rfl, hrest, hname, hshown⟩ := h.of_cons
    cases hf : Field.propertyName? ⟨fieldName, type, tag, doc, exported⟩ with
    | none =>
      rw [propertySchemas_hidden c path start rest hf,
        propertySchemas_hidden c' path start rest' (hname.symm.trans hf)]
      exact propertySchemas_showsSame hc path start hrest
    | some name =>
      have hg : Field.ShowsSame ⟨fieldName, type, tag, doc, exported⟩ g :=
        hshown (Option.isSome_iff_exists.2 ⟨name, hf⟩)
      rw [propertySchemas_property c path start rest hf,
        propertySchemas_property c' path start rest' (hname.symm.trans hf),
        typeSchema_showsSame hc path hg.type, hg.tag, hg.doc]
      exact bind_congr fun value => propertySchemas_showsSame hc path _ hrest
termination_by (c.remaining path, sizeOf fields)

/-- Types that show the same have the same schema. -/
theorem typeSchema_showsSame (hc : c.ShowsSame c') (path : List String) {t u : FieldType}
    (h : TypesShowSame t u) : c.typeSchema path t = c'.typeSchema path u := by
  match t with
  | .scalar s =>
    cases h
    rw [typeSchema, typeSchema]
  | .named n =>
    cases h
    cases hd : n.isDateTime with
    | true => rw [typeSchema_dateTime c path hd, typeSchema_dateTime c' path hd]
    | false =>
      rcases hc.get? n with ⟨hn, hn'⟩ | ⟨s, s', hn, hn', hs⟩
      · rw [typeSchema_unknown c path hd hn, typeSchema_unknown c' path hd hn']
      · have hdef := hs.isDefinition_eq
        cases hs' : s'.isDefinition with
        | true =>
          rw [typeSchema_reference c path hd hn (hdef.trans hs'),
            typeSchema_reference c' path hd hn' hs', hs.name_eq]
        | false =>
          by_cases hpath : s.name ∈ path
          · rw [typeSchema_again c path hd hn (hdef.trans hs') hpath,
              typeSchema_again c' path hd hn' hs' (hs.name_eq ▸ hpath), hs.name_eq]
          · have := remaining_append_lt (name_mem_of_get? hn) hpath
            rw [typeSchema_inline c path hd hn (hdef.trans hs') hpath,
              typeSchema_inline c' path hd hn' hs' (hs.name_eq ▸ hpath), ← hs.name_eq]
            exact objectSchema_showsSame hc (path ++ [s.name]) hs
  | .map value =>
    cases h <;> rw [typeSchema, typeSchema]
  | .array none =>
    cases h
    rw [typeSchema, typeSchema]
  | .array (some element) =>
    cases h with
    | array h =>
      cases ht : element.isByte with
      | true => rw [typeSchema_bytes c path ht, typeSchema_bytes c' path (h.isByte_eq ▸ ht)]
      | false =>
        rw [typeSchema_array c path ht, typeSchema_array c' path (h.isByte_eq ▸ ht),
          typeSchema_showsSame hc path h]
  | .struct inner =>
    cases h with
    | struct h =>
      rw [typeSchema, typeSchema]
      exact objectSchema_showsSame hc path h
termination_by (c.remaining path, sizeOf t)

end

theorem structSchema_showsSame (hc : c.ShowsSame c') {s s' : StructDescriptor}
    (h : StructsShowSame s s') (name : Option String) :
    c.structSchema s name = c'.structSchema s' name := by
  unfold structSchema inlineSchema
  simp only [h.isDefinition_eq, objectSchema_showsSame hc name.toList h]

theorem fieldSchema_showsSame (hc : c.ShowsSame c') {f g : Field} (h : f.ShowsSame g) :
    c.fieldSchema f = c'.fieldSchema g := by
  unfold fieldSchema
  rw [typeSchema_showsSame hc [] h.type, h.doc]

theorem definition_showsSame (hc : c.ShowsSame c') {s s' : StructDescriptor}
    (h : StructsShowSame s s') : c.definition s = c'.definition s' := by
  unfold definition inlineSchema
  rw [h.name_eq, objectSchema_showsSame hc _ h]

theorem ShowsSame.filter_definitions (hc : c.ShowsSame c') :
    List.Forall₂ StructsShowSame (c.structs.filter (·.isDefinition))
      (c'.structs.filter (·.isDefinition)) := by
  unfold ShowsSame at hc
  generalize c.structs = structs at hc
  generalize c'.structs = structs' at hc
  induction hc with
  | nil => exact .nil
  | cons h _ ih =>
    rw [List.filter_cons, List.filter_cons, h.isDefinition_eq]
    split
    · exact .cons h ih
    · exact ih

theorem definitions_showsSame (hc : c.ShowsSame c') : c.definitions = c'.definitions := by
  unfold definitions
  rw [mapM_eq_of_forall₂ (hc.filter_definitions.imp fun s s' => definition_showsSame hc)]

/-! ## Routes -/

theorem parameter?_showsSame (hc : c.ShowsSame c') {f g : Field} (h : f.ShowsSame g)
    (owner struct : String) (place : ParameterPlace) :
    c.parameter? owner struct f place = c'.parameter? owner struct g place := by
  unfold parameter?
  rw [h.tag, h.name, fieldSchema_showsSame hc h]

theorem parameters_showsSame (hc : c.ShowsSame c') {s s' : StructDescriptor}
    (h : StructsShowSame s s') (owner : String) :
    c.parameters owner s = c'.parameters owner s' := by
  have hplaces : ∀ f g : Field, f.ShowsSame g →
      ParameterPlace.all.mapM (c.parameter? owner s.name f) =
        ParameterPlace.all.mapM (c'.parameter? owner s'.name g) := by
    intro f g hfg
    rw [h.name_eq]
    have hplace : c.parameter? owner s'.name f = c'.parameter? owner s'.name g :=
      funext fun place => parameter?_showsSame hc hfg owner s'.name place
    rw [hplace]
  unfold parameters
  dsimp only
  rw [mapM_eq_of_forall₂ (h.fields.filter.imp hplaces)]

theorem bodySchema_showsSame (hc : c.ShowsSame c') {s s' : StructDescriptor}
    (h : StructsShowSame s s') : c.bodySchema s = c'.bodySchema s' := by
  unfold bodySchema
  rw [structSchema_showsSame hc h, h.name_eq]

theorem optionMapM_bodySchema_showsSame (hc : c.ShowsSame c') {o o' : Option StructDescriptor}
    (h : Option.Rel StructsShowSame o o') : o.mapM c.bodySchema = o'.mapM c'.bodySchema := by
  cases h with
  | none => rw [Option.mapM_none, Option.mapM_none]
  | some hs => rw [Option.mapM_some, Option.mapM_some, bodySchema_showsSame hc hs]

/-- What is done with the struct of a request or response is the same, if it is the same for structs
that show the same. -/
theorem routeStruct?_bind_showsSame (hc : c.ShowsSame c') {α : Type} (name : Option TypeName)
    {k k' : Option StructDescriptor → Compile α}
    (hk : ∀ o o', Option.Rel StructsShowSame o o' → k o = k' o') :
    (liftM (c.routeStruct? name) >>= k) = (liftM (c'.routeStruct? name) >>= k') := by
  cases name with
  | none =>
    rw [routeStruct?, routeStruct?, liftM_pure, pure_bind, pure_bind]
    exact hk none none .none
  | some n =>
    rcases hc.get? n with ⟨hn, hn'⟩ | ⟨s, s', hn, hn', hs⟩
    · rw [routeStruct?, routeStruct?, hn, hn', liftM_bind, liftM_pure, bind_assoc, pure_bind]
      exact bind_congr fun _ => hk none none .none
    · rw [routeStruct?, routeStruct?, hn, hn', liftM_pure, liftM_pure, pure_bind, pure_bind]
      exact hk (some s) (some s') (.some hs)

theorem route_showsSame (hc : c.ShowsSame c') (file group : String) (m : MethodDecl) :
    c.route file group m = c'.route file group m := by
  unfold route
  dsimp only
  refine bind_congr fun doc => ?_
  cases doc.route with
  | none => rfl
  | some declared =>
    dsimp only
    refine bind_congr fun signature => ?_
    refine routeStruct?_bind_showsSame hc signature.1 fun request request' hrequest => ?_
    refine routeStruct?_bind_showsSame hc signature.2 fun answer answer' hanswer => ?_
    have hparameters : ∀ owner, request.elim (return {}) (c.parameters owner) =
        request'.elim (return {}) (c'.parameters owner) := by
      intro owner
      cases hrequest with
      | none => rw [Option.elim_none, Option.elim_none]
      | some hs => exact parameters_showsSame hc hs owner
    have hbody : Option.Rel StructsShowSame (if declared.1 = .get then none else request)
        (if declared.1 = .get then none else request') := by
      split
      · exact .none
      · exact hrequest
    rw [hparameters, optionMapM_bodySchema_showsSame hc hbody,
      optionMapM_bodySchema_showsSame hc hanswer]

theorem group_showsSame (hc : c.ShowsSame c') (file : String) (t : TraitDecl) :
    c.group file t = c'.group file t := by
  have hroute : c.route file (plainName t.name) = c'.route file (plainName t.name) :=
    funext fun m => route_showsSame hc file (plainName t.name) m
  unfold group
  dsimp only
  rw [hroute]

theorem groups_showsSame (hc : c.ShowsSame c') (files : List SourceFile) :
    c.groups files = c'.groups files := by
  unfold groups
  have hgroup : ∀ file, c.group file = c'.group file := fun file =>
    funext fun t => group_showsSame hc file t
  simp only [hgroup]

/-! ## Main result -/

/-- Tables that show the same have the same definitions and, for all files, the same groups of
routes: the same values or the same error, and the same reports. -/
theorem hidden_fields_do_not_leak (hc : c.ShowsSame c') :
    c.definitions = c'.definitions ∧ ∀ files, c.groups files = c'.groups files :=
  ⟨definitions_showsSame hc, groups_showsSame hc⟩

/-- Accounts with two hidden fields: one in a list of structs written in place, and one of their
own. -/
def accounts (pin password : FieldType) (tag : Tag) (doc : String) : Catalog :=
  let card : StructDescriptor :=
    ⟨"", [⟨"number", .scalar .string, ⟨[("json", "number")]⟩, "", true⟩,
      ⟨"pin", pin, tag, doc, false⟩], false, []⟩
  ⟨[⟨"Account", [⟨"cards", .array (some (.struct card)), ⟨[("json", "cards")]⟩, "The cards.", true⟩,
    ⟨"password", password, tag, doc, false⟩], true, []⟩]⟩

/-- It does not show whether accounts hold a number and a text, or accounts again. -/
theorem accounts_keep_secrets :
    let plain := accounts (.scalar .u16) (.scalar .string) ⟨[("json", "secret")]⟩ "Keep it."
    let nested := accounts (.map none) (.array (some (.named ⟨[], "Account"⟩))) ⟨[("query", "")]⟩ ""
    plain.ShowsSame nested ∧ plain.definitions = nested.definitions ∧
      ∀ files, plain.groups files = nested.groups files := by
  intro plain nested
  have h : plain.ShowsSame nested := by
    refine .cons (.ofFields _ _ _ (.visible _ _ _ ?_ (.hidden _ .nil))) .nil
    exact .array (.struct (.ofFields _ _ _ (.visible _ _ _ (.scalar _) (.hidden _ .nil))))
  exact ⟨h, hidden_fields_do_not_leak h⟩

end Catalog

end ApiDecl
