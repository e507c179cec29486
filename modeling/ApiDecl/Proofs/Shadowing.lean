import ApiDecl.Proofs.PropertyOrder
import ApiDecl.Proofs.Sealing
import Mathlib

/-!
# Proofs: own and inherited fields in schemas

A sealed struct has its own fields first, and behind them the inherited ones whose field names are not
there yet. In its schema a property is that of the last visible field with its name, and these names
are not the names of the fields. So a property of an own field is that of the field unless an inherited
field is visible under the same name; then it is that of the last such field.
-/

namespace ApiDecl

/-! ## The last field of a name -/

theorem lastNamed?_append (own others : List Field) (name : String) :
    lastNamed? (own ++ others) name = (lastNamed? others name).or (lastNamed? own name) := by
  unfold lastNamed?
  rw [List.filter_append, List.getLast?_append]

theorem lastNamed?_eq_none {fields : List Field} {name : String} :
    lastNamed? fields name = none ↔ ∀ f ∈ fields, f.propertyName? ≠ some name := by
  unfold lastNamed?
  rw [List.getLast?_eq_none_iff, List.filter_eq_nil_iff]
  simp

/-- Of fields among which only one has a name in schemas, the last one with it is that one. -/
theorem lastNamed?_of_unique {fields : List Field} {f : Field} {name : String} (hf : f ∈ fields)
    (hname : f.propertyName? = some name)
    (hunique : ∀ g ∈ fields, g.propertyName? = some name → g = f) :
    lastNamed? fields name = some f := by
  cases hlast : lastNamed? fields name with
  | none => exact absurd hname (lastNamed?_eq_none.1 hlast f hf)
  | some g =>
    obtain ⟨hg, hgname⟩ := List.mem_filter.1 (List.mem_of_getLast? hlast)
    rw [hunique g hg (eq_of_beq hgname)]

/-! ## Own and inherited fields -/

/-- A field with the inline structs in its type resolved. -/
def Field.resolve (c : Catalog) (kept : String → Bool) (f : Field) : Field :=
  { f with type := f.type.resolve c kept }

theorem resolveFields_eq_map (c : Catalog) (kept : String → Bool) (fields : List Field) :
    resolveFields c kept fields = fields.map (Field.resolve c kept) := by
  induction fields with
  | nil => rfl
  | cons f rest ih =>
    cases f
    rw [resolveFields, ih, List.map_cons]
    rfl

/-- Adding what is missing of several lists puts fields of those lists behind the own ones. -/
theorem foldl_addMissing_eq (own : List Field) (others : List (List Field)) :
    ∃ inherited, others.foldl addMissing own = own ++ inherited ∧
      ∀ g ∈ inherited, g.name ∉ own.map (·.name) ∧ ∃ l ∈ others, g ∈ l := by
  induction others generalizing own with
  | nil => exact ⟨[], by simp, by simp⟩
  | cons l rest ih =>
    obtain ⟨inherited, heq, hinherited⟩ := ih (addMissing own l)
    refine ⟨l.filter (fun f => f.name ∉ own.map (·.name)) ++ inherited, ?_, fun g hg => ?_⟩
    · rw [List.foldl_cons, heq, addMissing, List.append_assoc]
    · rcases List.mem_append.1 hg with hg | hg
      · obtain ⟨hgl, hnew⟩ := List.mem_filter.1 hg
        exact ⟨of_decide_eq_true hnew, l, List.mem_cons_self, hgl⟩
      · obtain ⟨hnew, l', hl', hgl⟩ := hinherited g hg
        refine ⟨fun hown => hnew ?_, l', List.mem_cons_of_mem _ hl', hgl⟩
        rw [addMissing, List.map_append]
        exact List.mem_append_left _ hown

/-- The fields are those of the host, resolved, and behind them inherited ones: fields, with other
names, of the structs that the host embeds. -/
structure MergedFields (c : Catalog) (kept : String → Bool) (host : StructDescriptor)
    (inherited fields : List Field) : Prop where
  eq_append : fields = host.fields.map (Field.resolve c kept) ++ inherited
  fresh : ∀ g ∈ inherited, g.name ∉ host.fields.map (·.name)
  embedded : ∀ g ∈ inherited, ∃ T ∈ host.embeds, g ∈ c.fieldsOf T

theorem StructDescriptor.mergedFields_resolve (c : Catalog) (kept : String → Bool)
    (s : StructDescriptor) : ∃ inherited, MergedFields c kept s inherited (s.resolve c kept).fields := by
  obtain ⟨name, fields, isDefinition, embeds⟩ := s
  obtain ⟨inherited, heq, hinherited⟩ :=
    foldl_addMissing_eq (resolveFields c kept fields) ((embeds.filter kept).map c.fieldsOf)
  rw [map_name_resolveFields] at hinherited
  refine ⟨inherited, ?_, fun g hg => (hinherited g hg).1, fun g hg => ?_⟩
  · rw [resolve, heq, resolveFields_eq_map]
  · obtain ⟨-, l, hl, hgl⟩ := hinherited g hg
    obtain ⟨T, hT, rfl⟩ := List.mem_map.1 hl
    exact ⟨T, (List.mem_filter.1 hT).1, hgl⟩

/-- Among merged fields, the last one of a name that only one own field has is the last inherited one,
or else the own one. -/
theorem MergedFields.lastNamed? {c : Catalog} {kept : String → Bool} {host : StructDescriptor}
    {inherited fields : List Field} (h : MergedFields c kept host inherited fields) {f : Field}
    {name : String} (hf : f ∈ host.fields) (hname : f.propertyName? = some name)
    (hunique : ∀ g ∈ host.fields, g.propertyName? = some name → g = f) :
    lastNamed? fields name = some ((ApiDecl.lastNamed? inherited name).getD (f.resolve c kept)) := by
  have hown : ApiDecl.lastNamed? (host.fields.map (Field.resolve c kept)) name =
      some (f.resolve c kept) := by
    refine lastNamed?_of_unique (List.mem_map.2 ⟨f, hf, rfl⟩) hname fun g hg hgname => ?_
    obtain ⟨g₀, hg₀, rfl⟩ := List.mem_map.1 hg
    rw [hunique g₀ hg₀ hgname]
  rw [h.eq_append, lastNamed?_append, hown]
  cases ApiDecl.lastNamed? inherited name <;> rfl

namespace Catalog

variable {c : Catalog}

/-! ## Properties -/

/-- In the schema of a struct, a property is that of the last visible field with its name. -/
theorem Writes.lookup_property {s : StructDescriptor} {σ : Schema} (h : c.Writes (.struct s) σ)
    {name : String} {f : Field} (hf : lastNamed? s.fields name = some f) :
    ∃ schema, (c.fieldSchema f).result = .ok schema ∧
      σ.properties.lookup name = some (require name f.tag schema) := by
  cases h with
  | struct hw =>
    have hfollows : σ.properties.map (·.1) = σ.order.eraseDups := hw.followsOrder rfl
    have hnd : (σ.properties.map (·.1)).Nodup := hfollows ▸ nodup_eraseDups _
    -- the name is in the order, so it is that of a property
    have hkey : name ∈ σ.properties.map (·.1) := by
      obtain ⟨hmem, hname⟩ := List.mem_filter.1 (List.mem_of_getLast? hf)
      rw [hfollows, List.mem_eraseDups, hw.order_eq]
      exact List.mem_append_right _ (List.mem_filterMap.2 ⟨f, hmem, eq_of_beq hname⟩)
    obtain ⟨⟨_, property⟩, hproperty, rfl⟩ := List.mem_map.1 hkey
    rcases hw.property_of_mem List.nodup_nil hproperty with ⟨g, value, hg, hvalue, rfl⟩ | ⟨hnone, -⟩
    · obtain rfl := Option.some.inj (hf.symm.trans hg)
      exact ⟨_, fieldSchema_eq_ok_iff.2 ⟨value, hvalue, rfl⟩, lookup_of_mem hnd hproperty⟩
    · rw [hf] at hnone
      cases hnone

/-- In a sealed table every struct has its own fields first, and behind them inherited ones. If only
one own field has a name in schemas, the property of that name is the one of this field, unless
inherited fields are visible under the name; then it is the one of the last of these. -/
theorem direct_property (raw : Catalog) (hwf : raw.WellFormed) :
    ∃ (c : Catalog) (events : List Event),
      (∀ log, Id.run (raw.seal.run log) = (c, log ++ events)) ∧
      ∀ host f name, raw.find? host.name = some host → f ∈ host.fields →
        f.propertyName? = some name →
        (∀ g ∈ host.fields, g.propertyName? = some name → g = f) →
        ∃ s kept inherited, c.find? host.name = some s ∧
          kept = Sealing.keptFrom (droppedEdges events) host.name ∧
          MergedFields c kept host inherited s.fields ∧
          ∀ path σ, (c.inlineSchema s path).result = .ok σ → ∃ winner schema,
            winner = (lastNamed? inherited name).getD (f.resolve c kept) ∧
            (c.fieldSchema winner).result = .ok schema ∧
            σ.properties.lookup name = some (require name winner.tag schema) := by
  obtain ⟨c, events, hrun, hI, hnames⟩ := seal_inv hwf
  refine ⟨c, events, hrun, fun host f name hhost hf hname hunique => ?_⟩
  obtain ⟨s, hs⟩ := mem_names_iff.1 (hnames ▸ mem_names_of_find? hhost : host.name ∈ c.names)
  obtain ⟨host', hhost', rfl⟩ := hI.body _ s hs
  obtain rfl := Option.some.inj (hhost.symm.trans hhost')
  obtain ⟨inherited, hmerged⟩ :=
    host.mergedFields_resolve c (Sealing.keptFrom (droppedEdges events) host.name)
  refine ⟨_, _, inherited, hs, rfl, hmerged, fun path σ hσ => ?_⟩
  have hlast := hmerged.lastNamed? hf hname hunique
  obtain ⟨schema, hschema, hlookup⟩ := (writes_of_inlineSchema hσ).lookup_property hlast
  exact ⟨_, schema, rfl, hschema, hlookup⟩

/-- A field that is an `id` in schemas. -/
def number : Field :=
  ⟨"number", .scalar .u64, ⟨[("json", "id"), ("binding", "required")]⟩, "The number.", true⟩

/-- A text that is an `id` in schemas, as a field of a given name. -/
def idText (fieldName : String) : Field := ⟨fieldName, .scalar .string, ⟨[("json", "id")]⟩, "", true⟩

/-- A host with a number that embeds a struct with one field. -/
def hosting (base : Field) : Catalog :=
  ⟨[⟨"Base", [base], false, []⟩, ⟨"Host", [number], false, ["Base"]⟩]⟩

/-- The schema of the number where it is a property. -/
def numberProperty : Schema :=
  { type := some "integer", required := ["id"], description := "The number." }

theorem require_number :
    require "id" number.tag (describe number.doc (.typed "integer")) = numberProperty := by
  have hrequired : number.tag.isRequired = true := by decide +kernel
  rw [require, if_pos hrequired, describe, if_neg (by decide)]
  rfl

theorem writes_number (c : Catalog) : c.Writes (.struct ⟨"Host", [number], false, []⟩)
    (addProperty (.typed "object") "id" numberProperty) := by
  have hname : number.propertyName? = some "id" := by decide +kernel
  have hproperty := @WritesFields.property c (.typed "object") _ _ number [] "id" hname
    (.scalar .u64) (.done _)
  have hvalue := require_number ▸ hproperty
  exact .struct hvalue

/-- The property of the number is that of the host, whose field takes the place of the inherited one
of the same name. -/
theorem number_shadows : (hosting (idText "number")).WellFormed ∧
    ∃ (c : Catalog) (events : List Event) (s : StructDescriptor) (σ : Schema),
      (∀ log, Id.run ((hosting (idText "number")).seal.run log) = (c, log ++ events)) ∧
      c.find? "Host" = some s ∧ (c.inlineSchema s (some "Host")).result = .ok σ ∧
      σ.properties.lookup "id" = some numberProperty := by
  have hwf : (hosting (idText "number")).WellFormed := ⟨by decide, by decide⟩
  obtain ⟨c, events, hrun, hdirect⟩ := direct_property _ hwf
  obtain ⟨s, kept, inherited, hs, -, hmerged, hproperty⟩ :=
    hdirect ⟨"Host", [number], false, ["Base"]⟩ number "id" rfl (List.mem_singleton_self _)
      (by decide +kernel) fun g hg _ => List.mem_singleton.1 hg
  have hsealed : (Id.run ((hosting (idText "number")).seal.run #[])).1 =
      ⟨[⟨"Base", [idText "number"], false, []⟩, ⟨"Host", [number], false, []⟩]⟩ := by cbv
  obtain rfl : c = _ := (congrArg Prod.fst (hrun #[])).symm.trans hsealed
  obtain rfl := Option.some.inj hs
  obtain rfl : inherited = [] := (List.cons.inj hmerged.eq_append).2.symm
  have hσ := (inlineSchema_eq_ok_iff hs).2 (writes_number _)
  obtain ⟨winner, schema, rfl, hschema, hlookup⟩ := hproperty (some "Host") _ hσ
  obtain ⟨value, hvalue, rfl⟩ := fieldSchema_eq_ok_iff.1 hschema
  cases hvalue
  exact ⟨hwf, _, events, _, _, hrun, hs, hσ, hlookup.trans (congrArg some require_number)⟩

/-- The property of the number is lost to an inherited field with another name. -/
theorem number_is_overwritten : (hosting (idText "uuid")).WellFormed ∧
    ∃ (c : Catalog) (s : StructDescriptor) (σ : Schema),
      (Id.run ((hosting (idText "uuid")).seal.run #[])).1 = c ∧ c.find? "Host" = some s ∧
      (c.inlineSchema s (some "Host")).result = .ok σ ∧
      (c.fieldSchema number).result = .ok (describe number.doc (.typed "integer")) ∧
      σ.properties.lookup "id" = some (.typed "string") ∧
      σ.properties.lookup "id" ≠ some numberProperty := by
  have hsealed : (Id.run ((hosting (idText "uuid")).seal.run #[])).1 =
      ⟨[⟨"Base", [idText "uuid"], false, []⟩, ⟨"Host", [number, idText "uuid"], false, []⟩]⟩ := by
    cbv
  have hw : (⟨[⟨"Base", [idText "uuid"], false, []⟩,
      ⟨"Host", [number, idText "uuid"], false, []⟩]⟩ : Catalog).Writes
      (.struct ⟨"Host", [number, idText "uuid"], false, []⟩)
      { type := some "object", order := ["id", "id"], properties := [("id", .typed "string")] } :=
    .struct (.property (by decide +kernel) (.scalar .u64)
      (.property (by decide +kernel) (.scalar .string) (.done _)))
  refine ⟨⟨by decide, by decide⟩, _, _, _, hsealed, rfl, (inlineSchema_eq_ok_iff rfl).2 hw,
    fieldSchema_eq_ok_iff.2 ⟨_, .scalar .u64, rfl⟩, rfl, fun h => ?_⟩
  have htype := congrArg Schema.type (Option.some.inj h)
  exact absurd htype (by decide)

end Catalog

end ApiDecl
